import EntityClient.Filter.Query
import EntityClient.Session.Basic
import EntityClient.SortOrder

/-!
Finding and listing entities. A cached instance is found without a request. A listing asks for ids
only, or in full: then each object listed becomes or refreshes a live instance, one after another.
-/

namespace EntityClient.Session

variable {σ : Type}

/-- The live instance of an identity. -/
def find (t : Transport σ) (i : Identity) : Action σ Handle := do
  match (← get).pool.lookup i with
  | some h => return h
  | none =>
      let raw ← read t i.path []
      ensureSchema t
      let e ← readEntity i raw
      withPool (·.enter i e)

/-- The instances of a list, in its order. -/
def resolve (t : Transport σ) (l : IdList) : Action σ (List Handle) :=
  l.ids.mapM fun id => find t ⟨l.type, id⟩

/-- The parameters of a listing. What renders to nothing is left out. -/
def listParameters (filter order : String) (full : Bool) : List (String × String) :=
  (if filter = "" then [] else [("filter", filter)]) ++
  (if order = "" then [] else [("order", order)]) ++
  (if full then [("format", "full")] else [])

/-- The ids of a listing that is not full. -/
def listedIds (path : String) (v : Json) : Except Failure (List UInt64) :=
  match v.get? "objects" with
  | some (.arr items) => readIds (some (.arr items))
  | _ => .error (.malformed (.listing path))

/-- The objects of a full listing. -/
def listedObjects (path : String) : Json → Except Failure (List Json)
  | .arr items => .ok items
  | _ => .error (.malformed (.fullListing path))

def listedId (path : String) (object : Json) : Except Failure UInt64 :=
  match object.get? "id" with
  | some v => readId v
  | none => .error (.malformed (.listedWithoutId path))

/-- Takes one object of a full listing into the pool. -/
def listObject (type path : String) (object : Json) : Action σ UInt64 := do
  let id ← listedId path object
  let e ← readEntity ⟨type, id⟩ object
  let refresh := (← get).settings.refreshListed
  modifyPool (·.list refresh ⟨type, id⟩ e)
  return id

def renderFilter : Option Filter.Query → Except Failure String
  | none => .ok ""
  | some q =>
      match q.render with
      | .ok filter => .ok filter
      | .error fault => .error (.filter fault)

/-- Lists the entities of a type. The order is checked first, then the query, before any request. -/
def list (t : Transport σ) (type : String) (query : Option Filter.Query)
    (order : List (String × String)) (full : Bool) : Action σ IdList := do
  let order ← SortOrder.render order
  let filter ← renderFilter query
  let path := "/" ++ type
  let answer ← read t path (listParameters filter order full)
  if full then
    let objects ← listedObjects path answer
    ensureSchema t
    return ⟨type, ← objects.mapM (listObject type path)⟩
  else return ⟨type, ← listedIds path answer⟩

end EntityClient.Session
