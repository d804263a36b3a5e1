import EntityClient.Json.Parse
import EntityClient.Remote.Account
import EntityClient.Remote.Transport

/-!
The transport over HTTP. A client sends a request and brings back whatever response it gets, or
the reason why there was none. Only the status that the method expects is a success; the failure
of the latest call, if it failed, is kept.
-/

namespace EntityClient

structure HttpRequest where
  method : Method
  url : String
  body : Option String
deriving DecidableEq, Repr

structure HttpResponse where
  status : UInt16
  body : String
deriving DecidableEq, Repr

/-- Carries requests; what it does may depend on a state of its own. -/
structure HttpClient (γ : Type) where
  send : HttpRequest → γ → Except String HttpResponse × γ

structure HttpState (γ : Type) where
  client : γ
  lastFailure : Option String := none

namespace HttpResponse

/-- The message of an error member, unless it says that there is no error. -/
def errorText? : Option Json → Option String
  | none | some .null | some (.bool false) => none
  | some (.str s) => if s = "" then none else some s
  | some v => some v.compact

/-- The failure that an unexpected response stands for. -/
def failure (r : HttpResponse) : Failure :=
  match errorText? ((Json.parse? r.body).bind (·.get? "error")) with
  | some message => if r.status = 404 then .notFound message else .rejected r.status message
  | none => .status (some r.status) r.body

end HttpResponse

/-- What is sent over HTTP for a request. -/
def Account.request (a : Account) (r : Request) : HttpRequest :=
  ⟨r.method, a.url r.path r.query, r.body.map (·.compact)⟩

namespace HttpClient

variable {γ : Type} {α : Type}

/-- Fails, and keeps the words of the failure. -/
def fail (e : Failure) (s : HttpState γ) : Except Failure α × HttpState γ :=
  (.error e, { s with lastFailure := some e.message })

/-- Sends one request and judges the response. A success clears the last failure. -/
def exchange (c : HttpClient γ) (account : Account) (r : Request) (s : HttpState γ) :
    Except Failure String × HttpState γ :=
  let (answer, client) := c.send (account.request r) s.client
  let s := { s with client }
  match answer with
  | .error message => fail (.status none message) s
  | .ok response =>
      if response.status = r.method.successStatus then
        (.ok response.body, { s with lastFailure := none })
      else fail response.failure s

def parseBody (body : String) : Except Failure Json :=
  match Json.parse? body with
  | some v => .ok v
  | none => .error (.malformed .notJson)

/-- A document that cannot be parsed fails its call, though the exchange has succeeded. -/
def transport (c : HttpClient γ) (account : Account) : Transport (HttpState γ) where
  read path query s :=
    match c.exchange account (.read path query) s with
    | (.ok body, s) =>
        match parseBody body with
        | .ok v => (.ok v, s)
        | .error e => fail e s
    | (.error e, s) => (.error e, s)
  write w s := c.exchange account (.write w) s

end HttpClient
end EntityClient
