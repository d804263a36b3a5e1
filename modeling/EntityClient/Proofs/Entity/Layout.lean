import EntityClient.Proofs.Entity.Ids
import EntityClient.Proofs.Entity.RoundTrip
import EntityClient.Proofs.Property.Fitting

/-!
The layout of the objects that entities are read from. An object that keeps to the layout is read as
the entity it describes. Any other is refused for its first fault: the parts are taken in the order
properties, children, parents, links, and within a part members go by key and elements by position.
-/

namespace EntityClient

/-- The value of a property. Without a schema it is what JSON shows. -/
def PropertyForm (schema : Option TypeSchema) (e : String × Json) (v : Value) : Prop :=
  match schema with
  | none => v = .ofJson e.2
  | some s => s.Fits e.1 e.2 v

/-- Why a property has no value. -/
def PropertyFault (schema : Option TypeSchema) (e : String × Json) (x : Failure) : Prop :=
  match schema with
  | none => False
  | some s => s.Misfit e.1 e.2 x

theorem exact_readValue (schema : Option TypeSchema) (e : String × Json) :
    Exact (readValue schema e.1 e.2) (PropertyForm schema e) (PropertyFault schema e) := by
  cases schema with
  | none =>
      refine ⟨fun v => ?_, fun x => iff_of_false nofun id⟩
      rw [readValue, Except.ok.injEq, eq_comm, PropertyForm]
  | some s => exact s.exact_interpret e.1 e.2

/-- The properties are those of an object; what is no object has none. -/
inductive PropertiesForm (schema : Option TypeSchema) :
    Option Json → List (String × Value) → Prop
  | object {members properties}
      (forms : List.Forall₂ (fun x y => x.1 = y.1 ∧ PropertyForm schema x y.2) members properties) :
      PropertiesForm schema (some (.obj members)) properties
  | none {member} (noObject : ∀ members, member ≠ some (.obj members)) :
      PropertiesForm schema member []

/-- Why the properties cannot be read. -/
inductive PropertiesFault (schema : Option TypeSchema) : Option Json → Failure → Prop
  | property {members e x} (first : First (fun e => ∀ v, ¬ PropertyForm schema e v) members e)
      (fault : PropertyFault schema e x) : PropertiesFault schema (some (.obj members)) x

theorem exact_readProperties (schema : Option TypeSchema) (member : Option Json) :
    Exact (readProperties schema member) (PropertiesForm schema member)
      (PropertiesFault schema member) := by
  have object (members : List (String × Json)) :=
    readProperties_obj schema members ▸ Exact.entries (exact_readValue schema) members
  refine exact_of_total (fun properties form => ?_) (fun x fault => ?_) ?_
  · cases form with
    | object forms => exact ((object _).ok_iff properties).mpr forms
    | none noObject =>
        unfold readProperties
        split
        next members => exact absurd rfl (noObject members)
        next => rfl
  · cases fault with
    | property first fault => exact ((object _).error_iff x).mpr ⟨_, first, fault⟩
  · by_cases given : ∃ members, member = some (.obj members)
    · obtain ⟨members, rfl⟩ := given
      obtain ⟨properties, forms⟩ | ⟨x, e, first, fault⟩ := (object members).total
      · exact .inl ⟨properties, .object forms⟩
      · exact .inr ⟨x, .property first fault⟩
    · exact .inl ⟨[], .none (not_exists.mp given)⟩

theorem exists_propertiesForm_iff {schema : Option TypeSchema} {member : Option Json} :
    (∃ properties, PropertiesForm schema member properties) ↔
      ∀ s members, schema = some s → member = some (.obj members) →
        ∀ e ∈ members, ∃ v, s.Fits e.1 e.2 v := by
  constructor
  · rintro ⟨properties, form⟩ s members rfl rfl e mem
    cases form with
    | object forms =>
        obtain ⟨y, -, -, fits⟩ := exists_of_forall₂_left forms mem
        exact ⟨y.2, fits⟩
    | none noObject => exact absurd rfl (noObject members)
  · intro fit
    by_cases given : ∃ members, member = some (.obj members)
    · obtain ⟨members, rfl⟩ := given
      have each : ∀ e ∈ members, ∃ y : String × Value, e.1 = y.1 ∧ PropertyForm schema e y.2 := by
        intro e mem
        cases schema with
        | none => exact ⟨(e.1, .ofJson e.2), rfl, rfl⟩
        | some s =>
            obtain ⟨v, fits⟩ := fit s members rfl rfl e mem
            exact ⟨(e.1, v), rfl, fits⟩
      obtain ⟨properties, forms⟩ := exists_forall₂_iff.mpr each
      exact ⟨properties, .object forms⟩
    · exact ⟨[], .none (not_exists.mp given)⟩

/-- Entries that stand for the members of a well-formed object are in order. -/
theorem PropertiesForm.entries_ofList {schema : Option TypeSchema} {raw : Json} {key : String}
    {properties : List (String × Value)} (wf : raw.WellFormed)
    (form : PropertiesForm schema (raw.get? key) properties) :
    (SortedMap.ofList properties).entries = properties := by
  generalize served : raw.get? key = member at form
  cases form with
  | object forms =>
      have keys := keys_eq_of_forall₂ forms fun _ _ h => h.1
      exact SortedMap.entries_ofList (keys ▸ (wf.get? served).1)
  | none => rfl

theorem IdMapForm.entries_ofList {raw : Json} {key : String}
    {entries : List (String × List UInt64)} (wf : raw.WellFormed)
    (form : IdMapForm (raw.get? key) entries) : (SortedMap.ofList entries).entries = entries := by
  generalize served : raw.get? key = member at form
  cases form with
  | absent | null | emptyArray => rfl
  | object forms =>
      have keys := keys_eq_of_forall₂ forms fun _ _ h => h.1
      exact SortedMap.entries_ofList (keys ▸ (wf.get? served).1)

namespace Entity

/-- The entity that an object describes. -/
structure Form (schema : Option TypeSchema) (type : String) (id : UInt64) (raw : Json)
    (e : Entity) : Prop where
  object : ∃ members, raw = .obj members
  named : e.id = some id
  typed : e.kind = .ofTag type
  readonly : e.readonly = true ↔ raw.get? "readonly" = some (.bool true)
  properties : PropertiesForm schema (raw.get? "properties") e.properties.entries
  children : IdMapForm (raw.get? "children") e.children.entries
  parents : IdListForm (raw.get? "parents") e.parents
  links : IdMapForm (raw.get? "links") e.links.entries

/-- Why no entity is described: the first part that is at fault, and its fault. -/
inductive Fault (schema : Option TypeSchema) (type : String) (id : UInt64) (raw : Json) :
    Failure → Prop
  | object (noObject : ∀ members, raw ≠ .obj members) :
      Fault schema type id raw (.malformed (.entity type id))
  | properties {x} (fault : PropertiesFault schema (raw.get? "properties") x) :
      Fault schema type id raw x
  | children {x} (properties : ∃ l, PropertiesForm schema (raw.get? "properties") l)
      (fault : IdMapFault (raw.get? "children") x) : Fault schema type id raw x
  | parents {x} (properties : ∃ l, PropertiesForm schema (raw.get? "properties") l)
      (children : ∃ l, IdMapForm (raw.get? "children") l)
      (fault : IdListFault (raw.get? "parents") x) : Fault schema type id raw x
  | links {x} (properties : ∃ l, PropertiesForm schema (raw.get? "properties") l)
      (children : ∃ l, IdMapForm (raw.get? "children") l)
      (parents : ∃ ids, IdListForm (raw.get? "parents") ids)
      (fault : IdMapFault (raw.get? "links") x) : Fault schema type id raw x

/-- The layout of the objects that describe entities. -/
structure Layout (schema : Option TypeSchema) (raw : Json) : Prop where
  object : ∃ members, raw = .obj members
  properties : ∀ s members, schema = some s → raw.get? "properties" = some (.obj members) →
    ∀ e ∈ members, ∃ v, s.Fits e.1 e.2 v
  children : ∃ entries, IdMapForm (raw.get? "children") entries
  parents : ∃ ids, IdListForm (raw.get? "parents") ids
  links : ∃ entries, IdMapForm (raw.get? "links") entries

section Parts

variable {schema : Option TypeSchema} {type : String} {id : UInt64} {members : List (String × Json)}

theorem ofJson_obj_eq_ok_iff_forms {e : Entity} :
    ofJson type id (.obj members) schema = .ok e ↔
      ∃ properties children parents links,
        PropertiesForm schema (SortedMap.lookup "properties" members) properties ∧
        IdMapForm (SortedMap.lookup "children" members) children ∧
        IdListForm (SortedMap.lookup "parents" members) parents ∧
        IdMapForm (SortedMap.lookup "links" members) links ∧
        e = { id := some id, kind := .ofTag type
              readonly := SortedMap.lookup "readonly" members == some (.bool true)
              properties := .ofList properties, children := .ofList children
              parents := parents, links := .ofList links } := by
  rw [ofJson_obj_eq_ok_iff]
  simp only [(exact_readProperties _ _).ok_iff, (exact_readIdMap _).ok_iff,
    (exact_readIds _).ok_iff]

theorem ofJson_obj_eq_error_iff {x : Failure} :
    ofJson type id (.obj members) schema = .error x ↔ Fault schema type id (.obj members) x := by
  simp only [ofJson, bind_eq_error_iff, (exact_readProperties _ _).ok_iff,
    (exact_readProperties _ _).error_iff, (exact_readIdMap _).ok_iff, (exact_readIdMap _).error_iff,
    (exact_readIds _).ok_iff, (exact_readIds _).error_iff]
  constructor
  · rintro (fault | ⟨_, properties, fault | ⟨_, children, fault | ⟨_, parents, fault | done⟩⟩⟩)
    · exact .properties fault
    · exact .children ⟨_, properties⟩ fault
    · exact .parents ⟨_, properties⟩ ⟨_, children⟩ fault
    · exact .links ⟨_, properties⟩ ⟨_, children⟩ ⟨_, parents⟩ fault
    · obtain ⟨_, -, done⟩ := done
      cases done
  · intro fault
    cases fault with
    | object noObject => exact absurd rfl (noObject members)
    | properties fault => exact .inl fault
    | children properties fault =>
        obtain ⟨_, properties⟩ := properties
        exact .inr ⟨_, properties, .inl fault⟩
    | parents properties children fault =>
        obtain ⟨_, properties⟩ := properties
        obtain ⟨_, children⟩ := children
        exact .inr ⟨_, properties, .inr ⟨_, children, .inl fault⟩⟩
    | links properties children parents fault =>
        obtain ⟨_, properties⟩ := properties
        obtain ⟨_, children⟩ := children
        obtain ⟨_, parents⟩ := parents
        exact .inr ⟨_, properties, .inr ⟨_, children, .inr ⟨_, parents, .inl fault⟩⟩⟩

end Parts

section Whole

variable {schema : Option TypeSchema} {type : String} {id : UInt64} {raw : Json}

theorem ofJson_eq_ok_iff {e : Entity} (wf : raw.WellFormed) :
    ofJson type id raw schema = .ok e ↔ Form schema type id raw e := by
  constructor
  · intro he
    obtain ⟨members, rfl⟩ := exists_members_of_ofJson he
    obtain ⟨properties, children, parents, links, hproperties, hchildren, hparents, hlinks, rfl⟩ :=
      ofJson_obj_eq_ok_iff_forms.mp he
    refine ⟨⟨members, rfl⟩, rfl, rfl, beq_iff_eq, ?_, ?_, hparents, ?_⟩
    · exact (PropertiesForm.entries_ofList wf hproperties).symm ▸ hproperties
    · exact (IdMapForm.entries_ofList wf hchildren).symm ▸ hchildren
    · exact (IdMapForm.entries_ofList wf hlinks).symm ▸ hlinks
  · rintro ⟨⟨members, rfl⟩, named, typed, readonly, properties, children, parents, links⟩
    refine ofJson_obj_eq_ok_iff_forms.mpr ⟨_, _, _, _, properties, children, parents, links, ?_⟩
    have flag : e.readonly = (SortedMap.lookup "readonly" members == some (.bool true)) :=
      Bool.eq_iff_iff.mpr (readonly.trans beq_iff_eq.symm)
    rw [← flag, ← named, ← typed]
    simp only [SortedMap.ofList_entries]

theorem ofJson_eq_error_iff {x : Failure} :
    ofJson type id raw schema = .error x ↔ Fault schema type id raw x := by
  cases raw with
  | obj members => exact ofJson_obj_eq_error_iff
  | null | bool _ | int _ | float _ | str _ | arr _ =>
      constructor
      · intro h
        cases h
        exact .object nofun
      · intro fault
        cases fault with
        | object => rfl
        | properties fault | children _ fault | parents _ _ fault | links _ _ _ fault => cases fault

theorem exists_ofJson_iff :
    (∃ e, ofJson type id raw schema = .ok e) ↔ Layout schema raw := by
  constructor
  · rintro ⟨e, he⟩
    obtain ⟨members, rfl⟩ := exists_members_of_ofJson he
    obtain ⟨properties, children, parents, links, hproperties, hchildren, hparents, hlinks, -⟩ :=
      ofJson_obj_eq_ok_iff_forms.mp he
    exact ⟨⟨members, rfl⟩, exists_propertiesForm_iff.mp ⟨_, hproperties⟩, ⟨_, hchildren⟩,
      ⟨_, hparents⟩, ⟨_, hlinks⟩⟩
  · rintro ⟨⟨members, rfl⟩, properties, ⟨_, children⟩, ⟨_, parents⟩, ⟨_, links⟩⟩
    obtain ⟨_, properties⟩ := exists_propertiesForm_iff.mpr properties
    exact ⟨_, ofJson_obj_eq_ok_iff_forms.mpr
      ⟨_, _, _, _, properties, children, parents, links, rfl⟩⟩

/-- JSON is read just if it keeps to the layout, and then as the one entity that it describes;
otherwise it is refused for its first fault. It is well-formed, so of the members of an object the
first in place is the first by key. -/
theorem ofJson_layout (schema : Option TypeSchema) (type : String) (id : UInt64)
    (wf : raw.WellFormed) :
    (∀ e, ofJson type id raw schema = .ok e ↔ Form schema type id raw e) ∧
      (∀ x, ofJson type id raw schema = .error x ↔ Fault schema type id raw x) ∧
      ((∃ e, ofJson type id raw schema = .ok e) ↔ Layout schema raw) :=
  ⟨fun _ => ofJson_eq_ok_iff wf, fun _ => ofJson_eq_error_iff, exists_ofJson_iff⟩

end Whole

/-- All of its parts can be read. The flag is no flag, so it is not set. -/
def tidy : Json :=
  .object [("readonly", .str "true"), ("links", .arr []), ("parents", .arr [.str " +3 ", .word 3]),
    ("children", .object [("b", .null), ("a", .arr [.word 1])]),
    ("properties", .object [("note", .word 1), ("born", .null)])]

/-- Its children, its parents and its links all have faults. -/
def untidy : Json :=
  .object [("links", .bool true), ("parents", .arr [.str "x"]),
    ("children",
      .object [("c", .bool true), ("b", .arr [.word 1, .null, .str "-1"]), ("a", .null)])]

theorem ofJson_layout_tidy :
    (tidy.WellFormed ∧ Layout (some photoSchema) tidy) ∧
      (untidy.WellFormed ∧
        Fault (some photoSchema) "document" 7 untidy (.malformed (.entityId .null))) := by
  have wf : tidy.WellFormed :=
    .object ⟨trivial, trivial, ⟨trivial, trivial, trivial⟩,
      .object ⟨trivial, ⟨trivial, trivial⟩, trivial⟩, .object ⟨trivial, trivial, trivial⟩, trivial⟩
  have wf' : untidy.WellFormed :=
    .object ⟨trivial, ⟨trivial, trivial⟩,
      .object ⟨trivial, ⟨trivial, trivial, trivial, trivial⟩, trivial, trivial⟩, trivial⟩
  refine ⟨⟨wf, ?_⟩, wf', ?_⟩
  · exact (ofJson_layout (some photoSchema) "document" 7 wf).2.2.mp ⟨_, rfl⟩
  · exact ((ofJson_layout (some photoSchema) "document" 7 wf').2.1 _).mp rfl

end Entity
end EntityClient
