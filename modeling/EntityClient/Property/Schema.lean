import EntityClient.Property.Value
import EntityClient.Text.Decimal

/-!
Schemas: which properties each entity type has. A property is found by its title or its id; where
several share one, the last counts.
-/

namespace EntityClient

structure PropertySpec where
  id : Option UInt64
  title : String
  datatype : String
deriving DecidableEq, Repr

namespace PropertySpec

def checkMember (name : String) (v : Json) : Except RecordFault Unit :=
  if name = "id" then (Record.readOptionalWord v).map fun _ => ()
  else if name = "title" ∨ name = "datatype" then (Record.readText v).map fun _ => ()
  else .ok ()

/-- Reads a property by name or position; the id may be null or absent. -/
def ofJson (v : Json) : Except RecordFault PropertySpec := do
  let fields ← Record.Fields.ofJson .property v
  fields.checkNamed checkMember
  let id ← Record.readOptionalWord ((fields.find? 0 "id").getD .null)
  let title ← fields.required .property 1 "title" Record.readText
  let datatype ← fields.required .property 2 "datatype" Record.readText
  fields.checkEnd .property
  return ⟨id, title, datatype⟩

end PropertySpec

structure TypeSchema where
  type : String
  byTitle : SortedMap String PropertySpec
  titleById : SortedMap UInt64 String
deriving DecidableEq

namespace TypeSchema

def ofProperties (type : String) (properties : List PropertySpec) : TypeSchema where
  type := type
  byTitle := .ofList (properties.map fun p => (p.title, p))
  titleById := .ofList (properties.filterMap fun p => p.id.map fun id => (id, p.title))

/-- A property under the key of an object, which serves as its id if it names none. -/
def ofKeyed (key : String) (v : Json) : Except Failure PropertySpec := do
  let p ← Datatype.expectRecord (PropertySpec.ofJson v)
  return { p with id := p.id.orElse fun _ => Text.word? key.toList }

/-- Reads the properties from a list, or from an object keyed by id. -/
def ofJson (type : String) (body : Json) : Except Failure TypeSchema := do
  let properties ← match body.get? "properties" with
    | some (.arr items) => items.mapM fun v => Datatype.expectRecord (PropertySpec.ofJson v)
    | some (.obj members) => members.mapM fun (key, v) => ofKeyed key v
    | some .null | none => pure []
    | some v => .error (.malformed (.properties type v))
  return ofProperties type properties

def size (s : TypeSchema) : Nat := s.byTitle.size

def isEmpty (s : TypeSchema) : Bool := s.byTitle.isEmpty

def property (s : TypeSchema) (title : String) : Except Failure PropertySpec :=
  match s.byTitle.get? title with
  | some p => .ok p
  | none => .error (.unknownProperty s.type (.title title))

/-- The title of the property with an id. -/
def titleOf (s : TypeSchema) (id : UInt64) : Except Failure String :=
  match s.titleById.get? id with
  | some title => .ok title
  | none => .error (.unknownProperty s.type (.id id))

/-- The value of raw JSON under the datatype of a property. -/
def interpret (s : TypeSchema) (title : String) (raw : Json) : Except Failure Value := do
  let p ← s.property title
  match Datatype.ofTag? p.datatype with
  | some datatype => datatype.interpret raw
  | none => .error (.unsupportedDatatype title p.datatype)

end TypeSchema

/-- The schemas of all types of an account. -/
structure Schema where
  types : SortedMap String TypeSchema := .empty
deriving DecidableEq

namespace Schema

/-- Reads an object keyed by type; members that are no objects are passed over. -/
def ofJson (v : Json) : Except Failure Schema := do
  match v with
  | .obj members =>
      let described := members.filter fun e => e.2.members?.isSome
      let types ← described.mapM fun (type, body) => do return (type, ← TypeSchema.ofJson type body)
      return ⟨.ofList types⟩
  | _ => .error (.malformed .schema)

def get? (s : Schema) (type : String) : Option TypeSchema := s.types.get? type

def insert (s : Schema) (t : TypeSchema) : Schema := ⟨s.types.insert t.type t⟩

end Schema
end EntityClient
