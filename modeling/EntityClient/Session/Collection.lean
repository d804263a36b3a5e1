import EntityClient.Session.Lookup

/-!
Access to the entities of one type.
-/

namespace EntityClient

structure Collection where
  type : String
deriving DecidableEq, Repr

namespace Collection

variable {σ : Type}

def list (r : Collection) (t : Transport σ) (order : List (String × String)) (full : Bool) :
    Action σ IdList :=
  Session.list t r.type none order full

def listMatching (r : Collection) (t : Transport σ) (query : Filter.Query)
    (order : List (String × String)) (full : Bool) : Action σ IdList :=
  Session.list t r.type (some query) order full

def find (r : Collection) (t : Transport σ) (id : UInt64) : Action σ Handle :=
  Session.find t ⟨r.type, id⟩

end Collection
end EntityClient
