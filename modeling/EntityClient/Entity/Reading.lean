import EntityClient.Entity.Basic
import EntityClient.Property.Schema

/-!
Entities from the objects that the store serves. Absent relations are empty, and an empty array
stands for an empty map. The parts are read in the order properties, children, parents, links,
and the first fault counts.
-/

namespace EntityClient

/-- An id, as a number or in a string with blanks around it. -/
def readId (v : Json) : Except Failure UInt64 :=
  let id := match v with
    | .int n => n.word?
    | .str s => Text.word? (Text.trim s.toList)
    | _ => none
  match id with
  | some id => .ok id
  | none => .error (.malformed (.entityId v))

def readIds : Option Json → Except Failure (List UInt64)
  | none | some .null => .ok []
  | some (.arr items) => items.mapM readId
  | some v => .error (.malformed (.idList v))

def readIdMap : Option Json → Except Failure (List (String × List UInt64))
  | none | some .null | some (.arr []) => .ok []
  | some (.obj members) => members.mapM fun (key, ids) => do return (key, ← readIds (some ids))
  | some v => .error (.malformed (.idMap v))

/-- The properties of an object; what is no object has none. -/
def readProperties (schema : Option TypeSchema) :
    Option Json → Except Failure (List (String × Value))
  | some (.obj members) =>
      members.mapM fun (name, v) =>
        match schema with
        | some s => do return (name, ← s.interpret name v)
        | none => .ok (name, .ofJson v)
  | _ => .ok []

/-- The entity that an object of the store describes. -/
def Entity.ofJson (type : String) (id : UInt64) (raw : Json) (schema : Option TypeSchema) :
    Except Failure Entity :=
  match raw with
  | .obj members => do
      let get := fun key => SortedMap.lookup key members
      let properties ← readProperties schema (get "properties")
      let children ← readIdMap (get "children")
      let parents ← readIds (get "parents")
      let links ← readIdMap (get "links")
      return {
        id := some id
        kind := .ofTag type
        readonly := get "readonly" == some (.bool true)
        properties := .ofList properties
        children := .ofList children
        parents := parents
        links := .ofList links }
  | _ => .error (.malformed (.entity type id))

end EntityClient
