import EntityClient.Entity.Reading
import EntityClient.Proofs.Property.RoundTrip

/-!
An entity read back from what is written for it. Writing takes all of an entity but its children
and its id, each part in the form that reading expects, so an entity that was read from an object of
the store is read again from its own payload, without the children.
-/

namespace EntityClient

theorem readId_word (n : UInt64) : readId (.word n) = .ok n := by
  simp [readId, Json.word]

theorem readIds_idsJson (ids : List UInt64) : readIds (some (Entity.idsJson ids)) = .ok ids :=
  mapM_eq_ok fun n _ => readId_word n

theorem readIdMap_idsJson (m : SortedMap String (List UInt64)) :
    readIdMap (some (.obj (m.map Entity.idsJson).entries)) = .ok m.entries := by
  refine mapM_eq_ok fun e _ => ?_
  change (do return (e.1, ← readIds (some (Entity.idsJson e.2)))) = _
  rw [readIds_idsJson]
  rfl

/-- The value of a property, by the schema if there is one. -/
def readValue (schema : Option TypeSchema) (name : String) (raw : Json) : Except Failure Value :=
  match schema with
  | some s => s.interpret name raw
  | none => .ok (.ofJson raw)

theorem readValue_toJson {schema : Option TypeSchema} {name : String} {raw : Json} {v : Value}
    (h : readValue schema name raw = .ok v) : readValue schema name v.toJson = .ok v := by
  cases schema with
  | some s => exact TypeSchema.interpret_toJson h
  | none =>
      cases h
      exact congrArg Except.ok (Value.ofJson_toJson_ofJson raw)

theorem readProperties_obj (schema : Option TypeSchema) (members : List (String × Json)) :
    readProperties schema (some (.obj members)) =
      members.mapM fun e => (readValue schema e.1 e.2).map fun v => (e.1, v) := by
  cases schema with
  | none => rfl
  | some s =>
      refine congrArg (members.mapM ·) (funext fun e => ?_)
      change (do return (e.1, ← s.interpret e.1 e.2)) = (s.interpret e.1 e.2).map fun v => (e.1, v)
      cases s.interpret e.1 e.2 <;> rfl

theorem exists_of_mem_readProperties {schema : Option TypeSchema} {raw : Option Json}
    {properties : List (String × Value)} {e : String × Value}
    (h : readProperties schema raw = .ok properties) (mem : e ∈ properties) :
    ∃ v, readValue schema e.1 v = .ok e.2 := by
  cases raw with
  | none =>
      cases h
      cases mem
  | some raw =>
      cases raw with
      | obj members =>
          rw [readProperties_obj] at h
          obtain ⟨x, -, hx⟩ := exists_of_mapM_ok h mem
          cases hv : readValue schema x.1 x.2 with
          | error fault =>
              rw [hv] at hx
              cases hx
          | ok v =>
              rw [hv] at hx
              cases hx
              exact ⟨x.2, hv⟩
      | _ =>
          cases h
          cases mem

theorem readProperties_toJson {schema : Option TypeSchema} {raw : Option Json}
    {properties : List (String × Value)} (h : readProperties schema raw = .ok properties) :
    let m := SortedMap.ofList properties
    readProperties schema (some (.obj (m.map Value.toJson).entries)) = .ok m.entries := by
  intro m
  rw [readProperties_obj]
  refine mapM_eq_ok fun e he => ?_
  obtain ⟨v, hv⟩ := exists_of_mem_readProperties h (SortedMap.mem_of_mem_ofList he)
  rw [readValue_toJson hv]
  rfl

namespace Entity

section Reading

variable {type : String} {id : UInt64} {raw : Json} {schema : Option TypeSchema} {e : Entity}
  {members : List (String × Json)}

theorem exists_members_of_ofJson (he : ofJson type id raw schema = .ok e) :
    ∃ members, raw = .obj members := by
  cases raw with
  | obj members => exact ⟨members, rfl⟩
  | null | bool _ | int _ | float _ | str _ | arr _ => cases he

/-- An object is read part by part. -/
theorem ofJson_obj_eq_ok_iff :
    ofJson type id (.obj members) schema = .ok e ↔
      ∃ properties children parents links,
        readProperties schema (SortedMap.lookup "properties" members) = .ok properties ∧
        readIdMap (SortedMap.lookup "children" members) = .ok children ∧
        readIds (SortedMap.lookup "parents" members) = .ok parents ∧
        readIdMap (SortedMap.lookup "links" members) = .ok links ∧
        e = { id := some id, kind := .ofTag type
              readonly := SortedMap.lookup "readonly" members == some (.bool true)
              properties := .ofList properties, children := .ofList children
              parents := parents, links := .ofList links } := by
  constructor
  · intro he
    obtain ⟨properties, hproperties, he⟩ := exists_of_bind_ok he
    obtain ⟨children, hchildren, he⟩ := exists_of_bind_ok he
    obtain ⟨parents, hparents, he⟩ := exists_of_bind_ok he
    obtain ⟨links, hlinks, he⟩ := exists_of_bind_ok he
    exact ⟨properties, children, parents, links, hproperties, hchildren, hparents, hlinks,
      (Except.ok.inj he).symm⟩
  · rintro ⟨properties, children, parents, links, hproperties, hchildren, hparents, hlinks, rfl⟩
    simp only [ofJson, hproperties, hchildren, hparents, hlinks, bind, Except.bind]
    rfl

end Reading

/-- The members that an entity is written with. -/
def written (e : Entity) : List (String × Json) :=
  [("type", .str e.type), ("readonly", .bool e.readonly), ("properties", e.propertiesJson),
    ("parents", idsJson e.parents), ("links", e.linksJson)]

theorem payload_eq (e : Entity) : e.payload = .obj (SortedMap.ofList e.written).entries := rfl

theorem lookup_payload {e : Entity} {key : String} {v : Json} (h : (key, v) ∈ e.written) :
    SortedMap.lookup key (SortedMap.ofList e.written).entries = some v :=
  SortedMap.get?_ofList (by simp [written]) h

/-- Children are never written. -/
theorem lookup_children (e : Entity) :
    SortedMap.lookup "children" (SortedMap.ofList e.written).entries = none :=
  SortedMap.get?_ofList_of_not_mem (by simp [written])

/-- All of a payload but the properties is read back whatever it is. -/
theorem ofJson_payload_of_properties {type : String} {id : UInt64} {schema : Option TypeSchema}
    {e : Entity} (hid : e.id = some id) (hkind : e.kind = .ofTag type)
    (hproperties : readProperties schema (some e.propertiesJson) = .ok e.properties.entries) :
    ofJson type id e.payload schema = .ok { e with children := .empty } := by
  rw [payload_eq]
  refine ofJson_obj_eq_ok_iff.mpr
    ⟨e.properties.entries, [], e.parents, e.links.entries, ?_, ?_, ?_, ?_, ?_⟩
  · rw [lookup_payload (v := e.propertiesJson) (by simp [written]), hproperties]
  · rw [lookup_children]
    rfl
  · rw [lookup_payload (v := idsJson e.parents) (by simp [written]), readIds_idsJson]
  · rw [lookup_payload (v := e.linksJson) (by simp [written])]
    exact readIdMap_idsJson e.links
  · have flag : (some (Json.bool e.readonly) == some (Json.bool true)) = e.readonly := by
      cases e.readonly <;> simp
    rw [lookup_payload (v := .bool e.readonly) (by simp [written]), flag,
      SortedMap.ofList_entries, SortedMap.ofList_entries, ← hid, ← hkind]
    rfl

/-- Reading takes back what writing has put down. The schema matters: under another one, or under
none, the written values may stand for others. -/
theorem ofJson_payload {type : String} {id : UInt64} {raw : Json} {schema : Option TypeSchema}
    {e : Entity} (he : ofJson type id raw schema = .ok e) :
    ofJson type id e.payload schema = .ok { e with children := .empty } := by
  obtain ⟨members, rfl⟩ := exists_members_of_ofJson he
  obtain ⟨properties, children, parents, links, hproperties, -, -, -, rfl⟩ :=
    ofJson_obj_eq_ok_iff.mp he
  exact ofJson_payload_of_properties rfl rfl (readProperties_toJson hproperties)

/-- A type with properties of every datatype that asks for more than JSON shows. -/
def photoSchema : TypeSchema :=
  .ofProperties "document" [⟨none, "born", "date"⟩, ⟨none, "changed", "timestamp"⟩,
    ⟨none, "count", "int"⟩, ⟨none, "note", "text"⟩, ⟨none, "page", "file"⟩,
    ⟨none, "photo", "image"⟩, ⟨none, "tags", "text"⟩]

/-- Holds a leap second, a year before the common era, an integer beyond the signed words, a file
given by position, an image with its size, and children. -/
def photo : Json :=
  .obj [("children", .obj [("document", .arr [.word 4])]),
    ("links", .obj [("member", .arr [.str " +3 ", .word 3])]), ("parents", .arr [.word 2, .word 2]),
    ("properties", .obj [("born", .str " -1-2-3"), ("changed", .str "2016-12-31T23:59:60"),
      ("count", .word 18446744073709551615), ("note", .null),
      ("page", .arr [.str "/p", .word 1, .str "txt", .str "text/plain",
        .str "2020-01-02 03:04:05"]),
      ("photo", .obj [("dimensions", .arr [.word 640, .word 480]), ("ext", .str "jpg"),
        ("href", .str "/f"), ("mime", .str "image/jpeg"), ("size", .word 9),
        ("timestamp", .str "99-1-1 0:0:0")]),
      ("tags", .arr [.str "a", .null])]),
    ("readonly", .bool true)]

theorem ofJson_payload_photo :
    ∃ e, ofJson "document" 7 photo (some photoSchema) = .ok e ∧
      ofJson "document" 7 e.payload (some photoSchema) = .ok { e with children := .empty } := by
  have readable : (ofJson "document" 7 photo (some photoSchema)).isOk = true := by decide +kernel
  cases he : ofJson "document" 7 photo (some photoSchema) with
  | error x =>
      rw [he] at readable
      cases readable
  | ok e => exact ⟨e, rfl, ofJson_payload he⟩

end Entity
end EntityClient
