import EntityClient.Failure

/-!
The seam to the remote store. A transport reads JSON documents and performs writes; what it does
may depend on a state of its own, which every call passes on. Paths start with a slash.
-/

namespace EntityClient

inductive Method where
  | get
  | post
  | put
  | delete
deriving DecidableEq, Repr

namespace Method

def name : Method → String
  | .get => "GET"
  | .post => "POST"
  | .put => "PUT"
  | .delete => "DELETE"

/-- The status that a successful response carries. -/
def successStatus : Method → UInt16
  | .get => 200
  | .post => 201
  | .put | .delete => 204

end Method

inductive Write where
  | post (path : String) (body : Json)
  | put (path : String) (body : Json)
  | delete (path : String)
deriving DecidableEq, Repr

inductive Request where
  | read (path : String) (query : List (String × String))
  | write (w : Write)
deriving DecidableEq, Repr

namespace Request

def method : Request → Method
  | .read _ _ => .get
  | .write (.post _ _) => .post
  | .write (.put _ _) => .put
  | .write (.delete _) => .delete

def path : Request → String
  | .read p _ | .write (.post p _) | .write (.put p _) | .write (.delete p) => p

def query : Request → List (String × String)
  | .read _ q => q
  | .write _ => []

def body : Request → Option Json
  | .write (.post _ b) | .write (.put _ b) => some b
  | _ => none

/-- The value of the first query parameter with a name. -/
def param? (r : Request) (name : String) : Option String := r.query.lookup name

end Request

/-- A write answers with the text of the response. -/
structure Transport (σ : Type) where
  read : (path : String) → (query : List (String × String)) → σ → Except Failure Json × σ
  write : Write → σ → Except Failure String × σ

namespace Transport

/-- The same transport, keeping every request in order. -/
def recorded {σ : Type} (t : Transport σ) : Transport (σ × List Request) where
  read path query s :=
    let (r, next) := t.read path query s.1
    (r, next, s.2 ++ [.read path query])
  write w s :=
    let (r, next) := t.write w s.1
    (r, next, s.2 ++ [.write w])

end Transport
end EntityClient
