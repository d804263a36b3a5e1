import EntityClient.Property.Schema
import EntityClient.Proofs.Outcome

/-!
Looking properties up by title and by id. Either way the last property with the key counts, so the
two lookups are inverse to each other as long as a property that loses one of its keys to a later
one loses the other too. A list that repeats a title under another id, or an id under another title,
leaves a key behind that leads to the wrong property.
-/

namespace EntityClient

/-- The last property of a list with a certain key. -/
def PropertySpec.LastWith (key : PropertySpec → Prop) (properties : List PropertySpec)
    (p : PropertySpec) : Prop :=
  ∃ after, p :: after <:+ properties ∧ key p ∧ ∀ q ∈ after, ¬ key q

namespace PropertySpec

variable {key : PropertySpec → Prop} {properties after : List PropertySpec} {p : PropertySpec}

theorem exists_lastWith (key : PropertySpec → Prop) (present : ∃ q ∈ properties, key q) :
    ∃ p, LastWith key properties p := by
  induction properties with
  | nil =>
      obtain ⟨q, mem, -⟩ := present
      cases mem
  | cons first rest ih =>
      by_cases later : ∃ q ∈ rest, key q
      · obtain ⟨p, after, tail, hp, last⟩ := ih later
        exact ⟨p, after, tail.trans (List.suffix_cons first rest), hp, last⟩
      · obtain ⟨q, mem, hq⟩ := present
        have none : ∀ r ∈ rest, ¬ key r := fun r hr held => later ⟨r, hr, held⟩
        cases List.mem_cons.mp mem with
        | inl same => exact ⟨first, rest, List.suffix_rfl, same ▸ hq, none⟩
        | inr mem => exact absurd hq (none q mem)

/-- Where some property has the key, the last one is found there or behind. -/
theorem LastWith.mem_of_suffix (last : LastWith key properties p) (tail : after <:+ properties)
    (later : ∃ q ∈ after, key q) : p ∈ after := by
  obtain ⟨behind, hp, -, none⟩ := last
  obtain ⟨q, mem, hq⟩ := later
  cases List.suffix_or_suffix_of_suffix hp tail with
  | inl within => exact within.mem List.mem_cons_self
  | inr within =>
      cases List.suffix_cons_iff.mp within with
      | inl same => exact same ▸ List.mem_cons_self
      | inr within => exact absurd hq (none q (within.mem mem))

end PropertySpec

namespace TypeSchema

open PropertySpec

variable {s : TypeSchema} {type title : String} {properties : List PropertySpec}
  {p : PropertySpec} {id : UInt64}

theorem property_eq_ok_iff : s.property title = .ok p ↔ s.byTitle.get? title = some p := by
  unfold property
  split <;> simp_all

theorem titleOf_eq_ok_iff : s.titleOf id = .ok title ↔ s.titleById.get? id = some title := by
  unfold titleOf
  split <;> simp_all

theorem property_ofProperties_iff :
    (ofProperties type properties).property title = .ok p ↔
      LastWith (fun q => q.title = title) properties p := by
  rw [property_eq_ok_iff, ofProperties, ← List.filterMap_eq_map, SortedMap.get?_ofList_filterMap]
  constructor
  · rintro ⟨x, after, tail, hx, last⟩
    cases hx
    exact ⟨after, tail, rfl, fun q mem same => last q mem q (by simp [same])⟩
  · rintro ⟨after, tail, rfl, last⟩
    refine ⟨p, after, tail, rfl, fun q mem w hw => last q mem ?_⟩
    exact congrArg Prod.fst (Option.some.inj hw)

theorem titleOf_ofProperties_iff :
    (ofProperties type properties).titleOf id = .ok title ↔
      ∃ p, LastWith (fun q => q.id = some id) properties p ∧ p.title = title := by
  have entry (q : PropertySpec) (t : String) :
      (q.id.map fun i => (i, q.title)) = some (id, t) ↔ q.id = some id ∧ q.title = t := by
    cases q.id <;> simp
  rw [titleOf_eq_ok_iff, ofProperties, SortedMap.get?_ofList_filterMap]
  simp only [ne_eq, entry]
  constructor
  · rintro ⟨x, after, tail, ⟨hid, rfl⟩, last⟩
    exact ⟨x, ⟨after, tail, hid, fun q mem same => last q mem q.title ⟨same, rfl⟩⟩, rfl⟩
  · rintro ⟨p, ⟨after, tail, hid, last⟩, rfl⟩
    exact ⟨p, after, tail, ⟨hid, rfl⟩, fun q mem _ same => last q mem same.1⟩

/-- Titles and ids lead to each other. -/
structure TwoWay (s : TypeSchema) : Prop where
  byId : ∀ id title, s.titleOf id = .ok title → ∃ p, s.property title = .ok p ∧ p.id = some id
  byTitle : ∀ title p id, s.property title = .ok p → p.id = some id → s.titleOf id = .ok title

/-- A property with an id loses its title to a later property just if it loses its id to one. -/
def ReplacedWhole (properties : List PropertySpec) : Prop :=
  ∀ p after, p :: after <:+ properties → ∀ id, p.id = some id →
    ((∃ q ∈ after, q.title = p.title) ↔ ∃ q ∈ after, q.id = some id)

theorem replacedWhole_of_twoWay (twoWay : (ofProperties type properties).TwoWay) :
    ReplacedWhole properties := by
  obtain ⟨byId, byTitle⟩ := twoWay
  intro p after tail id hid
  have behind : after <:+ properties := (List.suffix_cons p after).trans tail
  constructor
  · intro retitled
    by_contra! kept
    -- the id leads to the title of `p`, and that to a later property without the id
    have named : (ofProperties type properties).titleOf id = .ok p.title :=
      titleOf_ofProperties_iff.mpr ⟨p, ⟨after, tail, hid, kept⟩, rfl⟩
    obtain ⟨w, found, hw⟩ := byId id p.title named
    have later : w ∈ after := (property_ofProperties_iff.mp found).mem_of_suffix behind retitled
    exact kept w later hw
  · intro renumbered
    by_contra! kept
    have found : (ofProperties type properties).property p.title = .ok p :=
      property_ofProperties_iff.mpr ⟨after, tail, rfl, kept⟩
    obtain ⟨w, last, hw⟩ := titleOf_ofProperties_iff.mp (byTitle p.title p id found hid)
    exact kept w (last.mem_of_suffix behind renumbered) hw

theorem twoWay_of_replacedWhole (whole : ReplacedWhole properties) :
    (ofProperties type properties).TwoWay where
  byId id title named := by
    obtain ⟨p, ⟨after, tail, hid, last⟩, rfl⟩ := titleOf_ofProperties_iff.mp named
    have untitled : ∀ q ∈ after, ¬ q.title = p.title := by
      intro q mem same
      obtain ⟨r, mem', taken⟩ := (whole p after tail id hid).mp ⟨q, mem, same⟩
      exact last r mem' taken
    exact ⟨p, property_ofProperties_iff.mpr ⟨after, tail, rfl, untitled⟩, hid⟩
  byTitle title p id found hid := by
    obtain ⟨after, tail, rfl, last⟩ := property_ofProperties_iff.mp found
    have unnumbered : ∀ q ∈ after, ¬ q.id = some id := by
      intro q mem same
      obtain ⟨r, mem', taken⟩ := (whole p after tail id hid).mpr ⟨q, mem, same⟩
      exact last r mem' taken
    exact titleOf_ofProperties_iff.mpr ⟨p, ⟨after, tail, hid, unnumbered⟩, rfl⟩

/-- Where no title and no id is repeated, nothing is replaced. -/
theorem replacedWhole_of_nodup (titles : (properties.map (·.title)).Nodup)
    (ids : (properties.filterMap (·.id)).Nodup) : ReplacedWhole properties := by
  intro p after tail id hid
  have htitle : p.title ∉ after.map (·.title) := by
    have nodup := titles.sublist (tail.sublist.map (·.title))
    exact (List.nodup_cons.mp nodup).1
  have hid' : id ∉ after.filterMap (·.id) := by
    have nodup := ids.sublist (tail.sublist.filterMap (·.id))
    rw [List.filterMap_cons_some hid] at nodup
    exact (List.nodup_cons.mp nodup).1
  exact iff_of_false (by simpa using htitle) (by simpa using hid')

/-- The title that an id leads to is defined, and so is the id of a property that is found. -/
structure LookupsDefined (s : TypeSchema) : Prop where
  title : ∀ id title, s.titleOf id = .ok title → ∃ p, s.property title = .ok p
  id : ∀ title p id, s.property title = .ok p → p.id = some id → ∃ title', s.titleOf id = .ok title'

theorem lookupsDefined_ofProperties (type : String) (properties : List PropertySpec) :
    (ofProperties type properties).LookupsDefined where
  title id title named := by
    obtain ⟨p, ⟨after, tail, -⟩, htitle⟩ := titleOf_ofProperties_iff.mp named
    obtain ⟨q, last⟩ := exists_lastWith (fun q => q.title = title)
      ⟨p, tail.mem List.mem_cons_self, htitle⟩
    exact ⟨q, property_ofProperties_iff.mpr last⟩
  id title p id found hid := by
    obtain ⟨after, tail, -⟩ := property_ofProperties_iff.mp found
    obtain ⟨q, last⟩ := exists_lastWith (fun q => q.id = some id)
      ⟨p, tail.mem List.mem_cons_self, hid⟩
    exact ⟨q.title, titleOf_ofProperties_iff.mpr ⟨q, last, rfl⟩⟩

/-! Schemas read from JSON -/

/-- The properties in the object of a type, in the order in which they are taken. -/
def propertiesOf (type : String) (body : Json) : Except Failure (List PropertySpec) :=
  match body.get? "properties" with
  | some (.arr items) => items.mapM fun v => Datatype.expectRecord (PropertySpec.ofJson v)
  | some (.obj members) => members.mapM fun (key, v) => ofKeyed key v
  | some .null | none => .ok []
  | some v => .error (.malformed (.properties type v))

theorem ofJson_eq (type : String) (body : Json) :
    ofJson type body = (propertiesOf type body).map (ofProperties type) := by
  unfold ofJson propertiesOf
  cases body.get? "properties" with
  | none => rfl
  | some v =>
      cases v with
      | arr items =>
          simp only
          cases items.mapM fun v => Datatype.expectRecord (PropertySpec.ofJson v) <;> rfl
      | obj members =>
          simp only
          cases members.mapM fun (key, v) => ofKeyed key v <;> rfl
      | null | bool _ | int _ | float _ | str _ => rfl

theorem ofJson_eq_ok_iff {body : Json} :
    ofJson type body = .ok s ↔
      ∃ properties, propertiesOf type body = .ok properties ∧ s = ofProperties type properties := by
  rw [ofJson_eq]
  cases propertiesOf type body <;> simp [Except.map, eq_comm]

end TypeSchema

/-- What a schema says about a type is read from a member of its JSON. -/
theorem Schema.exists_of_get? {v : Json} {D : Schema} {type : String} {s : TypeSchema}
    (read : ofJson v = .ok D) (known : D.get? type = some s) :
    ∃ members body properties, v = .obj members ∧ (type, body) ∈ members ∧
      TypeSchema.propertiesOf type body = .ok properties ∧
      s = TypeSchema.ofProperties type properties := by
  cases v with
  | obj members =>
      obtain ⟨types, htypes, hD⟩ := exists_of_bind_ok read
      cases hD
      have mem : (type, s) ∈ types :=
        SortedMap.mem_of_mem_ofList (SortedMap.get?_eq_some_iff.mp known)
      obtain ⟨⟨type', body⟩, described, hbody⟩ := exists_of_mapM_ok htypes mem
      obtain ⟨s', hs, heq⟩ := exists_of_bind_ok hbody
      cases heq
      obtain ⟨properties, hproperties, rfl⟩ := TypeSchema.ofJson_eq_ok_iff.mp hs
      exact ⟨members, body, properties, rfl, (List.mem_filter.mp described).1, hproperties, rfl⟩
  | null | bool _ | int _ | float _ | str _ | arr _ => cases read

namespace TypeSchema

/-- The lookups by title and by id are inverse to each other just if every property that is replaced
under one key is replaced under the other. They are where no title and no id is repeated, and what
one of them gives the other one always knows. So it is for every list of properties, and every
schema read from JSON holds such lists, whichever way they are written. -/
theorem twoWay_iff (type : String) :
    (∀ properties,
      ((ofProperties type properties).TwoWay ↔ ReplacedWhole properties) ∧
      ((properties.map (·.title)).Nodup → (properties.filterMap (·.id)).Nodup →
        (ofProperties type properties).TwoWay) ∧
      (ofProperties type properties).LookupsDefined) ∧
    ∀ v D s, Schema.ofJson v = .ok D → D.get? type = some s →
      ∃ members body properties, v = .obj members ∧ (type, body) ∈ members ∧
        propertiesOf type body = .ok properties ∧ s = ofProperties type properties := by
  refine ⟨fun properties => ⟨?_, fun titles ids => ?_, ?_⟩, fun v D s read known => ?_⟩
  · exact ⟨replacedWhole_of_twoWay, twoWay_of_replacedWhole⟩
  · exact twoWay_of_replacedWhole (replacedWhole_of_nodup titles ids)
  · exact lookupsDefined_ofProperties type properties
  · exact Schema.exists_of_get? read known

/-- Two properties of members, under one title. -/
def oneTitle : Json :=
  .object [("member", .object [("properties", .arr [
    .object [("id", .word 1), ("title", .str "Name"), ("datatype", .str "text")],
    .object [("id", .word 2), ("title", .str "Name"), ("datatype", .str "text")]])])]

/-- The second property takes the title of the first, whose id leads to that title all the same. -/
theorem not_twoWay_oneTitle :
    ∃ D s, Schema.ofJson oneTitle = .ok D ∧ D.get? "member" = some s ∧
      s.titleOf 1 = .ok "Name" ∧ s.property "Name" = .ok ⟨some 2, "Name", "text"⟩ ∧
      ¬ s.TwoWay := by
  refine ⟨⟨.ofList [("member", _)]⟩,
    ofProperties "member" [⟨some 1, "Name", "text"⟩, ⟨some 2, "Name", "text"⟩],
    by rfl, by rfl, by rfl, by rfl, fun twoWay => ?_⟩
  obtain ⟨p, found, hid⟩ := twoWay.byId 1 "Name" (by rfl)
  have last : p = ⟨some 2, "Name", "text"⟩ := (Except.ok.inj found).symm
  rw [last] at hid
  cases hid

end TypeSchema
end EntityClient
