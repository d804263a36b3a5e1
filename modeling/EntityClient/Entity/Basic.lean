import EntityClient.Entity.Identity
import EntityClient.Property.Value

/-!
Entities as the client holds them. Children come from the store and are never written back.
-/

namespace EntityClient

structure Entity where
  id : Option UInt64 := none
  kind : Kind
  readonly : Bool := false
  properties : SortedMap String Value := .empty
  children : SortedMap String (List UInt64) := .empty
  parents : List UInt64 := []
  links : SortedMap String (List UInt64) := .empty
deriving DecidableEq

namespace Entity

/-- An entity that the store does not have yet. -/
def blank (type : String) : Entity := { kind := .ofTag type }

def type (e : Entity) : String := e.kind.tag

/-- The identity of an entity with an id. -/
def identity (e : Entity) : Option Identity := e.id.map fun id => ⟨e.type, id⟩

def setProperty (e : Entity) (name : String) (v : Value) : Entity :=
  { e with properties := e.properties.insert name v }

def setChildren (e : Entity) (type : String) (ids : List UInt64) : Entity :=
  { e with children := e.children.insert type ids }

def setLinks (e : Entity) (type : String) (ids : List UInt64) : Entity :=
  { e with links := e.links.insert type ids }

def property? (e : Entity) (name : String) : Option Value := e.properties.get? name

def file? (e : Entity) (name : String) : Option Attachment := (e.property? name).bind (·.file?)

def image? (e : Entity) (name : String) : Option Picture := (e.property? name).bind (·.image?)

def childList? (e : Entity) (type : String) : Option IdList :=
  (e.children.get? type).map fun ids => ⟨type, ids⟩

def linkList? (e : Entity) (type : String) : Option IdList :=
  (e.links.get? type).map fun ids => ⟨type, ids⟩

/-- The parents under the type that the kind's parents have. -/
def parentList? (e : Entity) : Option IdList :=
  e.kind.parentTag.map fun type => ⟨type, e.parents⟩

def idsJson (ids : List UInt64) : Json := .arr (ids.map .word)

def propertiesJson (e : Entity) : Json := .obj (e.properties.map (·.toJson)).entries

def linksJson (e : Entity) : Json := .obj (e.links.map idsJson).entries

/-- What is written to the store. -/
def payload (e : Entity) : Json :=
  .object [("type", .str e.type), ("readonly", .bool e.readonly),
    ("properties", e.propertiesJson), ("parents", idsJson e.parents), ("links", e.linksJson)]

/-- Takes over another entity's state, and keeps the id where the other has none. -/
def takeOver (e other : Entity) : Entity := { other with id := other.id <|> e.id }

end Entity
end EntityClient
