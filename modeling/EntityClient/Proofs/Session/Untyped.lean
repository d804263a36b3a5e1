import EntityClient.Proofs.Entity.RoundTrip
import EntityClient.Proofs.Session.IdentityMap
import EntityClient.Proofs.Session.Requests

/-!
Entities that are read without a schema and written again. Each property is written as the value
that JSON shows, so the properties go back as they came, but for integers beyond the signed words:
those have become doubles. Below the properties, in arrays and objects, nothing changes.
-/

namespace EntityClient

/-- The properties that an object of the store has. -/
def Json.properties (raw : Json) : List (String × Json) :=
  match raw.get? "properties" with
  | some (.obj members) => members
  | _ => []

theorem Json.increasing_properties {raw : Json} (wf : raw.WellFormed) :
    (raw.properties.map Prod.fst).Pairwise (fun a b => compare a b = .lt) := by
  unfold properties
  split
  next members served => exact (wf.get? served).1
  next => exact List.Pairwise.nil

/-- Without a schema every property is taken as JSON shows it. -/
theorem readProperties_untyped (raw : Json) :
    readProperties none (raw.get? "properties") =
      .ok (raw.properties.map fun e => (e.1, Value.ofJson e.2)) := by
  unfold Json.properties
  split
  next members served =>
    rw [served]
    exact List.mapM_pure
  next other =>
    unfold readProperties
    split
    next members served => exact absurd served (other members)
    next => rfl

namespace Entity

variable {type : String} {id : UInt64} {raw : Json} {e : Entity}

theorem payload_properties (e : Entity) : e.payload.get? "properties" = some e.propertiesJson :=
  lookup_payload (by simp [written])

theorem propertiesJson_untyped (wf : raw.WellFormed) (he : ofJson type id raw none = .ok e) :
    e.propertiesJson =
      .obj (raw.properties.map fun e => (e.1, (Value.ofJson e.2).toJson)) := by
  obtain ⟨members, rfl⟩ := exists_members_of_ofJson he
  obtain ⟨properties, -, -, -, hproperties, -, -, -, rfl⟩ := ofJson_obj_eq_ok_iff.mp he
  have read := readProperties_untyped (.obj members)
  have same : properties = (Json.obj members).properties.map fun e => (e.1, Value.ofJson e.2) :=
    Except.ok.inj (hproperties.symm.trans read)
  have increasing := Json.increasing_properties wf
  subst same
  simp only [propertiesJson, SortedMap.map]
  rw [SortedMap.entries_ofList (by simpa [Function.comp_def] using increasing)]
  simp

/-- The properties are written as they were served if none of them is an integer beyond the signed
words, and only then. -/
theorem payload_untyped_iff (wf : raw.WellFormed) (he : ofJson type id raw none = .ok e) :
    e.payload.get? "properties" = some (.obj raw.properties) ↔
      ∀ name n, (name, Json.int n) ∈ raw.properties → n.val < 9223372036854775808 := by
  have kept : raw.properties.map (fun e => (e.1, (Value.ofJson e.2).toJson)) = raw.properties ↔
      ∀ e ∈ raw.properties, (Value.ofJson e.2).toJson = e.2 := by
    constructor
    · intro same e mem
      have pointwise := List.map_inj_left.mp (same.trans (List.map_id _).symm) e mem
      exact congrArg Prod.snd pointwise
    · intro same
      refine (List.map_congr_left fun e mem => ?_).trans (List.map_id _)
      exact Prod.ext rfl (same e mem)
  rw [payload_properties, propertiesJson_untyped wf he, Option.some.injEq, Json.obj.injEq, kept]
  constructor
  · intro same name n mem
    exact (Value.toJson_ofJson_iff (.int n)).mp (same _ mem) n rfl
  · intro small e mem
    refine (Value.toJson_ofJson_iff e.2).mpr fun n hn => small e.1 n ?_
    rwa [← hn]

end Entity

namespace Session

open EntityClient.Action

variable {σ : Type}

/-- What is found without a schema is the object served, read without one. -/
theorem exec_find_untyped (t : Transport σ) {i : Identity} {h : Handle} {raw : Json}
    {s s₁ : Session σ} (untyped : s.settings.typed = false) (unloaded : s.schema = none)
    (uncached : s.pool.lookup i = none) (served : (t.read i.path [] s.remote).1 = .ok raw)
    (found : exec (find t i) s = (.ok h, s₁)) :
    ∃ e, Entity.ofJson i.type i.id raw none = .ok e ∧ s₁.pool.get? h = some e := by
  obtain ⟨raw', s', e, served', ensured, read, hfind⟩ | ⟨x, s', hfind, -⟩ :=
    exec_find_served t uncached
  · rw [served] at served'
    cases served'
    have idle := exec_ensureSchema_idle t (s := { s with remote := (t.read i.path [] s.remote).2 })
      fun typed => absurd (untyped.symm.trans typed) Bool.false_ne_true
    cases ensured.symm.trans idle
    rw [unloaded] at read
    rw [hfind] at found
    cases found
    exact ⟨e, read, Pool.get?_create_self s.pool e⟩
  · rw [hfind] at found
    cases found

/-- An entity that was found without a schema and is saved as it was found is sent with the
properties that the store has served, unless one of them is an integer beyond the signed words. -/
theorem save_untyped (t : Transport σ) {i : Identity} {h : Handle} {raw : Json} {e : Entity}
    {s s₁ s₂ : Session (σ × List Request)} (untyped : s.settings.typed = false)
    (unloaded : s.schema = none) (uncached : s.pool.lookup i = none)
    (served : (t.recorded.read i.path [] s.remote).1 = .ok raw) (wf : raw.WellFormed)
    (found : exec (find t.recorded i) s = (.ok h, s₁))
    (unedited : s₂.pool.get? h = s₁.pool.get? h) (live : s₂.pool.get? h = some e)
    (writable : e.readonly = false) :
    ∃ payload, (exec (save t.recorded h) s₂).2.remote.2 =
        s₂.remote.2 ++ [.write (.put i.path payload)] ∧
      (payload.get? "properties" = some (.obj raw.properties) ↔
        ∀ name n, (name, Json.int n) ∈ raw.properties → n.val < 9223372036854775808) := by
  obtain ⟨e', read, live'⟩ := exec_find_untyped t.recorded untyped unloaded uncached served found
  rw [← unedited, live] at live'
  cases live'
  refine ⟨e.payload, ?_, Entity.payload_untyped_iff wf read⟩
  have hw : e.saving = .put i.path e.payload := by
    obtain ⟨htype, hid⟩ := Entity.identity_eq_some_iff.mp (Entity.identity_ofJson read)
    rw [Entity.saving, hid, htype]
  rw [save_log t live writable, hw]

/-- Holds values of every form that JSON has, and an integer beyond the signed words within one. -/
def mixed : Json :=
  .object [("properties", .object [("a", .null), ("b", .bool false),
    ("c", .word 9223372036854775807), ("d", .float (.zero true)), ("e", .str "2020-01-02"),
    ("f", .arr [.word 18446744073709551615]), ("g", .object [("h", .null)])])]

theorem wellFormed_mixed : mixed.WellFormed :=
  .object ⟨.object ⟨trivial, trivial, trivial, trivial, trivial, ⟨trivial, trivial⟩,
    .object ⟨trivial, trivial⟩, trivial⟩, trivial⟩

theorem save_untyped_mixed :
    let t := (serving mixed).recorded
    let s := (exec (find t ⟨"member", 1⟩) (start ((), []) {})).2
    ∃ payload, (exec (save t 0) s).2.remote.2 =
        s.remote.2 ++ [.write (.put (Identity.path ⟨"member", 1⟩) payload)] ∧
      payload.get? "properties" = some (.obj mixed.properties) := by
  intro t s
  have found : exec (find t ⟨"member", 1⟩) (start ((), []) {}) = (.ok 0, s) := rfl
  have flag : (s.pool.get? 0).map Entity.readonly = some false := rfl
  obtain ⟨e, live, writable⟩ := Option.map_eq_some_iff.mp flag
  obtain ⟨payload, sent, same⟩ :=
    save_untyped (serving mixed) rfl rfl rfl rfl wellFormed_mixed found rfl live writable
  refine ⟨payload, sent, same.mpr fun name n mem => ?_⟩
  have listed : mixed.properties = [("a", .null), ("b", .bool false),
      ("c", .word 9223372036854775807), ("d", .float (.zero true)), ("e", .str "2020-01-02"),
      ("f", .arr [.word 18446744073709551615]), ("g", .obj [("h", .null)])] := rfl
  have only : name = "c" ∧ n = .ofWord 9223372036854775807 := by
    simpa [listed, Json.word] using mem
  rw [only.2]
  decide

/-- An integer beyond the signed words comes back as a double. -/
theorem save_untyped_large :
    let raw : Json := .obj [("properties", .obj [("n", .word 18446744073709551615)])]
    let t := (serving raw).recorded
    let s := (exec (find t ⟨"member", 1⟩) (start ((), []) {})).2
    ∃ payload, (exec (save t 0) s).2.remote.2 =
        s.remote.2 ++ [.write (.put (Identity.path ⟨"member", 1⟩) payload)] ∧
      payload.get? "properties" ≠ raw.get? "properties" := by
  intro raw t s
  refine ⟨((s.pool.get? 0).map Entity.payload).getD .null, rfl, ?_⟩
  decide +kernel

end Session
end EntityClient
