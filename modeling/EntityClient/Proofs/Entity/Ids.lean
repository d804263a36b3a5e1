import EntityClient.Entity.Reading
import EntityClient.Proofs.Outcome
import EntityClient.Proofs.Text.Numeral

/-!
Ids, lists of ids and maps of such lists in JSON. What is read as one of them is one of its forms,
and it has only these. What has no form is refused: an array for its first element that is no id,
and an object for its first member that is no list.
-/

namespace EntityClient

theorem Whole.word?_eq_some_iff {w : Whole} {n : UInt64} : w.word? = some n ↔ w = .ofWord n := by
  constructor
  · intro h
    obtain ⟨val, lower, upper⟩ := w
    simp only [word?] at h
    split at h
    next nonneg =>
      cases h
      have small : val.toNat < 2 ^ 64 := by omega
      have whole : ((UInt64.ofNat val.toNat).toNat : Int) = val := by
        rw [UInt64.toNat_ofNat_of_lt' small]
        omega
      simp only [ofWord, whole]
    next => cases h
  · rintro rfl
    exact word?_ofWord n

theorem Json.word?_eq_some_iff {v : Json} {n : UInt64} : v.word? = some n ↔ v = .word n := by
  cases v with
  | int w => rw [word?, Whole.word?_eq_some_iff, word, Json.int.injEq]
  | null | bool _ | float _ | str _ | arr _ | obj _ => exact iff_of_false nofun nofun

/-- An id is an integer, or its numeral in a string with blanks around it. -/
inductive IdForm : Json → UInt64 → Prop
  | integer (id) : IdForm (.word id) id
  | numeral {s text id} (within : Text.Within Text.isBlank s.toList text)
      (numeral : Text.Numeral text id) : IdForm (.str s) id

/-- A list of ids is an array of them; null and no member at all are empty lists. -/
inductive IdListForm : Option Json → List UInt64 → Prop
  | absent : IdListForm none []
  | null : IdListForm (some .null) []
  | array {items ids} (forms : List.Forall₂ IdForm items ids) : IdListForm (some (.arr items)) ids

/-- The id that a value is read as. -/
def Json.id? : Json → Option UInt64
  | .int n => n.word?
  | .str s => Text.word? (Text.trim s.toList)
  | _ => none

theorem Json.id?_eq_some_iff {v : Json} {id : UInt64} : v.id? = some id ↔ IdForm v id := by
  constructor
  · intro h
    cases v with
    | int n =>
        rw [Whole.word?_eq_some_iff.mp h]
        exact .integer id
    | str s => exact .numeral (Text.within_trimmed _ _) (Text.word?_eq_some_iff.mp h)
    | null | bool _ | float _ | arr _ | obj _ => cases h
  · intro h
    cases h with
    | integer => exact Whole.word?_ofWord id
    | @numeral s text _ within numeral =>
        have trimmed : Text.trim s.toList = text := Text.trimmed_of_within within numeral.isBlank
        rw [id?, trimmed, Text.word?_eq_some_iff.mpr numeral]

theorem readId_eq (v : Json) :
    readId v = match v.id? with
      | some id => .ok id
      | none => .error (.malformed (.entityId v)) := by
  cases v <;> rfl

theorem readId_eq_ok_iff {v : Json} {id : UInt64} : readId v = .ok id ↔ IdForm v id := by
  rw [readId_eq, ← Json.id?_eq_some_iff]
  cases v.id? <;> simp

theorem readIds_eq_ok_iff {member : Option Json} {ids : List UInt64} :
    readIds member = .ok ids ↔ IdListForm member ids := by
  have array (items : List Json) :
      items.mapM readId = .ok ids ↔ List.Forall₂ IdForm items ids := by
    simp only [mapM_eq_ok_iff, readId_eq_ok_iff]
  constructor
  · intro h
    cases member with
    | none =>
        cases h
        exact .absent
    | some v =>
        cases v with
        | null =>
            cases h
            exact .null
        | arr items => exact .array ((array items).mp h)
        | bool _ | int _ | float _ | str _ | obj _ => cases h
  · intro h
    cases h with
    | absent => rfl
    | null => rfl
    | array forms => exact (array _).mpr forms

/-- A member that is given as no list of ids: neither null nor an array of ids. -/
def NoIdList (member : Option Json) : Prop :=
  ∃ v, member = some v ∧ v ≠ .null ∧
    ∀ items, v = .arr items → ∃ item ∈ items, ∀ id, ¬ IdForm item id

theorem noIdList_iff {member : Option Json} :
    NoIdList member ↔ ∀ ids, ¬ IdListForm member ids := by
  constructor
  · rintro ⟨v, rfl, present, none⟩ ids form
    cases form with
    | null => exact present rfl
    | array forms =>
        obtain ⟨item, mem, unread⟩ := none _ rfl
        obtain ⟨id, -, form⟩ := exists_of_forall₂_left forms mem
        exact unread id form
  · intro none
    cases member with
    | none => exact absurd .absent (none [])
    | some v =>
        refine ⟨v, rfl, ?_, ?_⟩
        · rintro rfl
          exact none [] .null
        · rintro items rfl
          by_contra! all
          obtain ⟨ids, forms⟩ := exists_forall₂_iff.mpr all
          exact none ids (.array forms)

/-! What is refused -/

theorem exact_readId (v : Json) :
    Exact (readId v) (IdForm v) fun x =>
      (∀ id, ¬ IdForm v id) ∧ x = .malformed (.entityId v) where
  ok_iff _ := readId_eq_ok_iff
  error_iff x := by
    rw [readId_eq]
    simp only [← Json.id?_eq_some_iff]
    cases v.id? <;> simp [eq_comm]

/-- Why a member is no list of ids. -/
inductive IdListFault : Option Json → Failure → Prop
  | shape {v} (present : v ≠ .null) (noArray : ∀ items, v ≠ .arr items) :
      IdListFault (some v) (.malformed (.idList v))
  | item {items v} (first : First (fun v => ∀ id, ¬ IdForm v id) items v) :
      IdListFault (some (.arr items)) (.malformed (.entityId v))

theorem exact_readIds (member : Option Json) :
    Exact (readIds member) (IdListForm member) (IdListFault member) := by
  refine ⟨fun _ => readIds_eq_ok_iff, fun x => ?_⟩
  have row (items : List Json) := (Exact.row exact_readId items).error_iff x
  constructor
  · intro h
    cases member with
    | none => cases h
    | some v =>
        cases v with
        | null => cases h
        | arr items =>
            obtain ⟨v, first, -, rfl⟩ := (row items).mp h
            exact .item first
        | bool _ | int _ | float _ | str _ | obj _ =>
            cases h
            exact .shape nofun nofun
  · intro fault
    cases fault with
    | @shape v present noArray =>
        cases v with
        | null => exact absurd rfl present
        | arr items => exact absurd rfl (noArray items)
        | bool _ | int _ | float _ | str _ | obj _ => rfl
    | item first => exact (row _).mpr ⟨_, first, first.holds, rfl⟩

/-- A map of lists of ids is an object of them. Null, an empty array and no member at all are empty
maps. -/
inductive IdMapForm : Option Json → List (String × List UInt64) → Prop
  | absent : IdMapForm none []
  | null : IdMapForm (some .null) []
  | emptyArray : IdMapForm (some (.arr [])) []
  | object {members entries}
      (forms : List.Forall₂ (fun x y => x.1 = y.1 ∧ IdListForm (some x.2) y.2) members entries) :
      IdMapForm (some (.obj members)) entries

/-- Why a member is no map of lists of ids. -/
inductive IdMapFault : Option Json → Failure → Prop
  | shape {v} (present : v ≠ .null) (filled : v ≠ .arr [])
      (noObject : ∀ members, v ≠ .obj members) : IdMapFault (some v) (.malformed (.idMap v))
  | member {members e x} (first : First (fun e => ∀ ids, ¬ IdListForm (some e.2) ids) members e)
      (fault : IdListFault (some e.2) x) : IdMapFault (some (.obj members)) x

theorem readIdMap_obj (members : List (String × Json)) :
    readIdMap (some (.obj members)) =
      members.mapM fun e => (readIds (some e.2)).map fun ids => (e.1, ids) := by
  refine congrArg (members.mapM ·) (funext fun e => ?_)
  change (do return (e.1, ← readIds (some e.2))) = _
  cases readIds (some e.2) <;> rfl

theorem exact_readIdMap (member : Option Json) :
    Exact (readIdMap member) (IdMapForm member) (IdMapFault member) := by
  have object (members : List (String × Json)) :=
    readIdMap_obj members ▸ Exact.entries (fun e => exact_readIds (some e.2)) members
  refine exact_of_total (fun entries form => ?_) (fun x fault => ?_) ?_
  · cases form with
    | absent | null | emptyArray => rfl
    | object forms => exact ((object _).ok_iff entries).mpr forms
  · cases fault with
    | @shape v present filled noObject =>
        cases v with
        | null => exact absurd rfl present
        | obj members => exact absurd rfl (noObject members)
        | arr items =>
            cases items with
            | nil => exact absurd rfl filled
            | cons => rfl
        | bool _ | int _ | float _ | str _ => rfl
    | member first fault => exact ((object _).error_iff x).mpr ⟨_, first, fault⟩
  · cases member with
    | none => exact .inl ⟨[], .absent⟩
    | some v =>
        cases v with
        | null => exact .inl ⟨[], .null⟩
        | arr items =>
            cases items with
            | nil => exact .inl ⟨[], .emptyArray⟩
            | cons => exact .inr ⟨_, .shape nofun nofun nofun⟩
        | obj members =>
            obtain ⟨entries, forms⟩ | ⟨x, e, first, fault⟩ := (object members).total
            · exact .inl ⟨entries, .object forms⟩
            · exact .inr ⟨x, .member first fault⟩
        | bool _ | int _ | float _ | str _ => exact .inr ⟨_, .shape nofun nofun nofun⟩

end EntityClient
