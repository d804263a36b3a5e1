import EntityClient.Entity.Reading

/-!
Change sets: what was created, updated and deleted of each type since a revision. Ids are sets, so
a set lists them in increasing order whatever order the store gave them in.
-/

namespace EntityClient

abbrev IdSet := SortedMap UInt64 Unit

def IdSet.ofList (ids : List UInt64) : IdSet := SortedMap.ofList (ids.map fun id => (id, ()))

structure TypeDelta where
  created : IdSet
  updated : IdSet
  deleted : IdSet
deriving DecidableEq

namespace TypeDelta

def isEmpty (c : TypeDelta) : Bool := c.created.isEmpty && c.updated.isEmpty && c.deleted.isEmpty

/-- Reads the three id lists; absent ones are empty. -/
def ofMembers (members : List (String × Json)) : Except Failure TypeDelta := do
  let read := fun key => do
    return IdSet.ofList (← readIds (SortedMap.lookup key members))
  return ⟨← read "created", ← read "updated", ← read "deleted"⟩

end TypeDelta

structure Delta where
  since : UInt64
  revision : Option UInt64
  types : SortedMap String TypeDelta
deriving DecidableEq

namespace Delta

/-- The changes of the object-valued members. -/
def readTypes : List (String × Json) → Except Failure (List (String × TypeDelta))
  | [] => .ok []
  | (key, .obj body) :: rest =>
      if key = "revision" then readTypes rest
      else do
        let changes ← TypeDelta.ofMembers body
        return (key, changes) :: (← readTypes rest)
  | _ :: rest => readTypes rest

/-- Reads a replication answer: an object keyed by type, with the revision it leads to. -/
def ofJson (since : UInt64) : Json → Except Failure Delta
  | .obj members => do
      let types ← readTypes members
      return ⟨since, (SortedMap.lookup "revision" members).bind (·.word?), .ofList types⟩
  | _ => .error (.malformed (.changes since))

def get? (c : Delta) (type : String) : Option TypeDelta := c.types.get? type

def isEmpty (c : Delta) : Bool := c.types.values.all (·.isEmpty)

def list (c : Delta) (pick : TypeDelta → IdSet) (type : String) : IdList :=
  ⟨type, ((c.get? type).map fun t => (pick t).keys).getD []⟩

def created (c : Delta) : String → IdList := c.list (·.created)

def updated (c : Delta) : String → IdList := c.list (·.updated)

def deleted (c : Delta) : String → IdList := c.list (·.deleted)

end Delta
end EntityClient
