import EntityClient.Proofs.Property.Lookups
import EntityClient.Proofs.Property.RoundTrip
import EntityClient.Proofs.Text.Numeral
import Mathlib.Data.List.Perm.Basic

/-!
The two forms of a type's properties in JSON: a list of objects that name their ids, and an object
with the ids as keys. Properties that share no id and no title make the same schema in either form
and in any order, also the byte order of the keys, in which "10" stands before "2".
-/

namespace EntityClient

namespace PropertySpec

/-- A property is read from members that hold its fields; a missing id is none. -/
theorem ofJson_named {members : List (String × Json)} {id : Option UInt64} {title datatype : String}
    (checked : ∀ e ∈ members, checkMember e.1 e.2 = .ok ())
    (hid : SortedMap.lookup "id" members = id.map Json.word)
    (htitle : SortedMap.lookup "title" members = some (.str title))
    (hdatatype : SortedMap.lookup "datatype" members = some (.str datatype)) :
    ofJson (.obj members) = .ok ⟨id, title, datatype⟩ := by
  have fields : (Record.Fields.named members).checkNamed checkMember = .ok () :=
    forM_eq_ok checked
  have word : Record.readOptionalWord ((SortedMap.lookup "id" members).getD .null) = .ok id := by
    rw [hid]
    cases id with
    | none => rfl
    | some id => simp [Record.readOptionalWord, Record.readWord, Json.word, Except.map]
  have text := Record.Fields.required_named .property 1 Record.readText htitle
  have tag := Record.Fields.required_named .property 2 Record.readText hdatatype
  simp only [ofJson, Record.Fields.ofJson, Record.Fields.find?, fields, word, text, tag,
    Record.readText, bind, Except.bind]
  rfl

end PropertySpec

/-- A property with an id. -/
structure NumberedProperty where
  id : UInt64
  title : String
  datatype : String
deriving DecidableEq, Repr

namespace NumberedProperty

def spec (p : NumberedProperty) : PropertySpec := ⟨some p.id, p.title, p.datatype⟩

/-- The members of the object that describes the property, with its id or without. -/
def members (p : NumberedProperty) (named : Bool) : List (String × Json) :=
  (if named then [("id", .word p.id)] else []) ++
    [("title", .str p.title), ("datatype", .str p.datatype)]

def toJson (p : NumberedProperty) (named : Bool) : Json := .object (p.members named)

/-- The list of the properties. -/
def listForm (l : List NumberedProperty) : Json := .arr (l.map (·.toJson true))

/-- The object with the properties under their ids; `named` tells which of them name it again. -/
def keyedForm (named : NumberedProperty → Bool) (l : List NumberedProperty) : Json :=
  .object (l.map fun p => (toString p.id, p.toJson (named p)))

theorem checkMember_members (p : NumberedProperty) (named : Bool) :
    ∀ e ∈ p.members named, PropertySpec.checkMember e.1 e.2 = .ok () := by
  have id : PropertySpec.checkMember "id" (.word p.id) = .ok () := by
    simp [PropertySpec.checkMember, Record.readOptionalWord, Record.readWord, Json.word,
      Except.map]
  intro e he
  cases named <;> simp only [members, if_true, Bool.false_eq_true, if_false, List.nil_append,
    List.cons_append, List.mem_cons, List.not_mem_nil, or_false] at he
  · obtain rfl | rfl := he <;> rfl
  · obtain rfl | rfl | rfl := he
    · exact id
    · rfl
    · rfl

theorem ofJson_toJson (p : NumberedProperty) (named : Bool) :
    PropertySpec.ofJson (p.toJson named) =
      .ok ⟨if named then some p.id else none, p.title, p.datatype⟩ := by
  have nodup : ((p.members named).map Prod.fst).Nodup := by cases named <;> simp [members]
  refine PropertySpec.ofJson_named (fun e he => ?_) ?_ ?_ ?_
  · exact p.checkMember_members named e (SortedMap.mem_of_mem_ofList he)
  · cases named with
    | true => exact SortedMap.get?_ofList nodup (by simp [members])
    | false => exact SortedMap.get?_ofList_of_not_mem (by simp [members])
  · exact SortedMap.get?_ofList nodup (by simp [members])
  · exact SortedMap.get?_ofList nodup (by simp [members])

/-- Under its id as the key a property need not name the id. -/
theorem ofKeyed_toJson (p : NumberedProperty) (named : Bool) :
    TypeSchema.ofKeyed (toString p.id) (p.toJson named) = .ok p.spec := by
  rw [TypeSchema.ofKeyed, ofJson_toJson]
  cases named with
  | true => rfl
  | false =>
      simp only [Datatype.expectRecord, bind, Except.bind, Bool.false_eq_true, if_false,
        Option.orElse_none, Text.word?_toString]
      rfl

theorem toString_injective {a b : UInt64} (h : toString a = toString b) : a = b := by
  have read := Text.word?_toString a
  rw [h, Text.word?_toString] at read
  exact (Option.some.inj read).symm

end NumberedProperty

namespace TypeSchema

open NumberedProperty

variable {type : String} {l l' : List NumberedProperty}

theorem propertiesOf_listForm {body : Json}
    (given : body.get? "properties" = some (listForm l)) :
    propertiesOf type body = .ok (l.map (·.spec)) := by
  rw [propertiesOf, given]
  simp only [listForm]
  rw [mapM_eq_ok_iff, List.forall₂_map_left_iff, List.forall₂_map_right_iff]
  refine List.forall₂_same.mpr fun p _ => ?_
  rw [p.ofJson_toJson]
  rfl

/-- The keys stand in their byte order, whatever the order of the properties. -/
theorem propertiesOf_keyedForm {body : Json} {named : NumberedProperty → Bool}
    (ids : (l.map (·.id)).Nodup) (given : body.get? "properties" = some (keyedForm named l)) :
    ∃ properties, propertiesOf type body = .ok properties ∧
      properties.Perm (l.map (·.spec)) := by
  let member := fun p : NumberedProperty => (toString p.id, p.toJson (named p))
  have keys : ((l.map member).map Prod.fst).Nodup := by
    have names : (l.map member).map Prod.fst = (l.map (·.id)).map toString := by
      simp [member, Function.comp_def]
    rw [names]
    exact List.Pairwise.map _ (fun _ _ differ same => differ (toString_injective same)) ids
  have rows : List.Forall₂ (fun e p => ofKeyed e.1 e.2 = .ok p) (l.map member)
      (l.map (·.spec)) := by
    rw [List.forall₂_map_left_iff, List.forall₂_map_right_iff]
    exact List.forall₂_same.mpr fun p _ => p.ofKeyed_toJson (named p)
  obtain ⟨properties, sorted, perm⟩ :=
    List.perm_comp_forall₂ (SortedMap.entries_ofList_perm keys) rows
  refine ⟨properties, ?_, perm⟩
  rw [propertiesOf, given]
  exact mapM_eq_ok_iff.mpr sorted

/-- The order of properties that share no title and no id does not matter. -/
theorem ofProperties_eq_of_perm (type : String) {properties properties' : List PropertySpec}
    (titles : (properties.map (·.title)).Nodup) (ids : (properties.filterMap (·.id)).Nodup)
    (perm : properties.Perm properties') :
    ofProperties type properties = ofProperties type properties' := by
  have byTitle := SortedMap.ofList_eq_of_perm (l := properties.map fun p => (p.title, p))
    (by simpa [Function.comp_def] using titles) (perm.map _)
  have byId := SortedMap.ofList_eq_of_perm
    (l := properties.filterMap fun p => p.id.map fun id => (id, p.title))
    (by simpa [List.map_filterMap, Function.comp_def] using ids) (perm.filterMap _)
  rw [ofProperties, ofProperties, byTitle, byId]

/-- The schema of a type has these properties and no others. -/
structure Describes (s : TypeSchema) (type : String) (l : List NumberedProperty) : Prop where
  type : s.type = type
  size : s.size = l.length
  property_iff : ∀ title spec,
    s.property title = .ok spec ↔ ∃ p ∈ l, p.title = title ∧ p.spec = spec
  titleOf_iff : ∀ id title, s.titleOf id = .ok title ↔ ∃ p ∈ l, p.id = id ∧ p.title = title
  interpret : ∀ p ∈ l, ∀ raw, s.interpret p.title raw =
    match Datatype.ofTag? p.datatype with
    | some datatype => datatype.interpret raw
    | none => .error (.unsupportedDatatype p.title p.datatype)

theorem describes_ofProperties (type : String) (ids : (l.map (·.id)).Nodup)
    (titles : (l.map (·.title)).Nodup) :
    (ofProperties type (l.map (·.spec))).Describes type l := by
  have byTitle : (ofProperties type (l.map (·.spec))).byTitle =
      .ofList (l.map fun p => (p.title, p.spec)) := by
    simp [ofProperties, spec, Function.comp_def]
  have byId : (ofProperties type (l.map (·.spec))).titleById =
      .ofList (l.map fun p => (p.id, p.title)) := by
    simp [ofProperties, spec, Function.comp_def]
  have titleKeys : ((l.map fun p => (p.title, p.spec)).map Prod.fst).Nodup := by
    simpa [Function.comp_def] using titles
  have idKeys : ((l.map fun p => (p.id, p.title)).map Prod.fst).Nodup := by
    simpa [Function.comp_def] using ids
  have property_iff (title : String) (spec : PropertySpec) :
      (ofProperties type (l.map (·.spec))).property title = .ok spec ↔
        ∃ p ∈ l, p.title = title ∧ p.spec = spec := by
    rw [property_eq_ok_iff, byTitle, SortedMap.get?_ofList_iff_mem titleKeys]
    simp
  constructor
  · rfl
  · have entries := SortedMap.entries_ofList_perm titleKeys
    rw [TypeSchema.size, byTitle, SortedMap.size, entries.length_eq, List.length_map]
  · exact property_iff
  · intro id title
    rw [titleOf_eq_ok_iff, byId, SortedMap.get?_ofList_iff_mem idKeys]
    simp
  · intro p mem raw
    rw [TypeSchema.interpret, (property_iff p.title p.spec).mpr ⟨p, mem, rfl, rfl⟩]
    rfl

/-- Properties that share no id and no title make one schema, which has just these properties,
whether they are listed in some order or stand under their ids, named again or not. -/
theorem forms_agree (type : String) {l : List NumberedProperty} (ids : (l.map (·.id)).Nodup)
    (titles : (l.map (·.title)).Nodup) :
    ∃ s : TypeSchema, s.Describes type l ∧ ∀ (l' : List NumberedProperty) (body : Json),
      l'.Perm l →
      (body.get? "properties" = some (listForm l') ∨
        ∃ named, body.get? "properties" = some (keyedForm named l')) →
      ofJson type body = .ok s := by
  refine ⟨ofProperties type (l.map (·.spec)), describes_ofProperties type ids titles, ?_⟩
  intro l' body perm given
  have specTitles : ((l.map (·.spec)).map (·.title)).Nodup := by
    simpa [spec, Function.comp_def] using titles
  have specIds : ((l.map (·.spec)).filterMap (·.id)).Nodup := by
    simpa [spec, Function.comp_def] using ids
  have any {properties : List PropertySpec} (read : propertiesOf type body = .ok properties)
      (order : properties.Perm (l'.map (·.spec))) :
      ofJson type body = .ok (ofProperties type (l.map (·.spec))) := by
    have same := ofProperties_eq_of_perm type specTitles specIds
      (order.trans (perm.map _)).symm
    exact ofJson_eq_ok_iff.mpr ⟨properties, read, same⟩
  cases given with
  | inl listed => exact any (propertiesOf_listForm listed) .rfl
  | inr keyed =>
      obtain ⟨named, keyed⟩ := keyed
      have ids' : (l'.map (·.id)).Nodup := (perm.map _).nodup_iff.mpr ids
      obtain ⟨properties, read, order⟩ := propertiesOf_keyedForm ids' keyed
      exact any read order

/-- Properties whose ids stand the other way round as keys. -/
def nameAndAge : List NumberedProperty := [⟨2, "Name", "text"⟩, ⟨10, "Age", "int"⟩]

/-- Of the two properties the name repeats its id under the key. -/
theorem forms_agree_nameAndAge :
    ∃ s : TypeSchema, s.Describes "member" nameAndAge ∧
      ofJson "member" (.object [("properties", listForm nameAndAge.reverse)]) = .ok s ∧
      ofJson "member" (.object [("properties", keyedForm (·.id = 2) nameAndAge)]) = .ok s := by
  obtain ⟨s, describes, same⟩ := forms_agree "member" (l := nameAndAge) (by decide) (by decide)
  refine ⟨s, describes, ?_, ?_⟩
  · exact same nameAndAge.reverse _ (List.reverse_perm nameAndAge) (.inl (by rfl))
  · exact same nameAndAge _ (.refl nameAndAge) (.inr ⟨(·.id = 2), by rfl⟩)

end TypeSchema
end EntityClient
