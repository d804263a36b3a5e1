import EntityClient.Remote.Http

/-!
A client that answers from a table by method and path, and keeps the requests it was sent. What
the table does not know gets no response.
-/

namespace EntityClient

structure Script where
  /-- The URLs' common start, which ends in a slash. -/
  base : String
  /-- By method and path, the latest first. -/
  routes : List ((Method × String) × Except String HttpResponse) := []
  sent : List HttpRequest := []

namespace Script

def respond (s : Script) (method : Method) (path : String) (answer : Except String HttpResponse) :
    Script :=
  { s with routes := ((method, path), answer) :: s.routes }

/-- The path that a URL asks for: what follows the base, up to the query. -/
def target (s : Script) (url : String) : String :=
  String.ofList ('/' :: (url.toList.drop s.base.length).takeWhile (· != '?'))

def answer (s : Script) (r : HttpRequest) : Except String HttpResponse :=
  (s.routes.lookup (r.method, s.target r.url)).getD (.error "connection reset")

def client : HttpClient Script where
  send r s := (s.answer r, { s with sent := s.sent ++ [r] })

end Script
end EntityClient
