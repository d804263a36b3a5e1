import EntityClient.Remote.Transport

/-!
A transport that answers from a table. Each method and path has at most one answer, given again on
every request; what the table does not know is not found.
-/

namespace EntityClient

/-- Answers by method and path, the latest first. -/
structure RouteTable where
  routes : List ((Method × String) × Except Failure Json) := []

namespace RouteTable

/-- Adds an answer, over the one before. -/
def respond (t : RouteTable) (method : Method) (path : String) (answer : Except Failure Json) :
    RouteTable :=
  ⟨((method, path), answer) :: t.routes⟩

def answer (t : RouteTable) (method : Method) (path : String) : Except Failure Json :=
  match t.routes.lookup (method, path) with
  | some answer => answer
  | none => .error (.notFound ("no mock route for " ++ method.name ++ " " ++ path))

/-- The text of a write's answer: strings as they are, other values as JSON. -/
def bodyText : Json → String
  | .str s => s
  | v => v.compact

def transport : Transport RouteTable where
  read path _ t := (t.answer .get path, t)
  write w t :=
    let r := Request.write w
    ((t.answer r.method r.path).map bodyText, t)

end RouteTable
end EntityClient
