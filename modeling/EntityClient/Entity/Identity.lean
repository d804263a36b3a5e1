import EntityClient.SortedMap

/-!
Kinds, identities and id lists of entities. Two entities are the same remote object when their
types and ids are equal; identities are ordered by type, then id.
-/

namespace EntityClient

/-- The kind of an entity. Known kinds have a kind of parents. -/
inductive Kind where
  | member
  | membergroup
  | document
  | documentgroup
  | other (tag : String)
deriving DecidableEq, Repr

namespace Kind

def ofTag (tag : String) : Kind :=
  if tag = "member" then .member
  else if tag = "membergroup" then .membergroup
  else if tag = "document" then .document
  else if tag = "documentgroup" then .documentgroup
  else .other tag

def tag : Kind → String
  | .member => "member"
  | .membergroup => "membergroup"
  | .document => "document"
  | .documentgroup => "documentgroup"
  | .other t => t

/-- The type of the entities that are parents. -/
def parentTag : Kind → Option String
  | .member | .membergroup => some "membergroup"
  | .document | .documentgroup => some "documentgroup"
  | .other _ => none

@[simp]
theorem tag_ofTag (t : String) : (ofTag t).tag = t := by
  unfold ofTag
  split
  · simp [tag, *]
  split
  · simp [tag, *]
  split
  · simp [tag, *]
  split
  · simp [tag, *]
  · rfl

end Kind

structure Identity where
  type : String
  id : UInt64
deriving DecidableEq, Repr

namespace Identity

def name (i : Identity) : String := i.type ++ "/" ++ toString i.id

def path (i : Identity) : String := "/" ++ i.name

instance : Ord Identity := ⟨compareLex (compareOn Identity.type) (compareOn Identity.id)⟩

instance : Std.TransOrd Identity :=
  inferInstanceAs (Std.TransCmp (compareLex (compareOn Identity.type) (compareOn Identity.id)))

instance : Std.LawfulEqOrd Identity where
  eq_of_compare {a b} h := by
    have h : compareLex (compareOn Identity.type) (compareOn Identity.id) a b = .eq := h
    rw [compareLex_eq_eq] at h
    obtain ⟨type, id⟩ := a
    obtain ⟨type', id'⟩ := b
    simp only [compareOn, Std.compare_eq_iff_eq] at h
    rw [h.1, h.2]

/-- Identities in order, each once. -/
def sorted (l : List Identity) : List Identity := (SortedMap.ofList (l.map fun i => (i, ()))).keys

end Identity

/-- Ids of entities of one type, in the order given. -/
structure IdList where
  type : String
  ids : List UInt64
deriving DecidableEq, Repr

namespace IdList

def size (l : IdList) : Nat := l.ids.length

def isEmpty (l : IdList) : Bool := l.ids.isEmpty

def contains (l : IdList) (id : UInt64) : Bool := l.ids.contains id

end IdList
end EntityClient
