import EntityClient.Proofs.Session.Frame
import EntityClient.Proofs.Session.Listing
import EntityClient.Proofs.Session.Untyped

/-!
The schema is loaded once. As long as there is none, loading asks the store for it, and keeps it if
the answer can be read. Once there is one it stays, and loading asks no more. A session that wants
datatypes loads it between asking for an object and reading the object, so nothing is hydrated there
without a schema.
-/

namespace EntityClient

/-- Every property of the entity is read from one of the object: by the schema of the type if there
is one, else as JSON shows it. -/
def Entity.ReadBy (schema : Option TypeSchema) (object : Json) (e : Entity) : Prop :=
  ∀ name v, e.properties.get? name = some v → ∃ raw, (name, raw) ∈ object.properties ∧
    match schema with
    | some described => described.interpret name raw = .ok v
    | none => v = .ofJson raw

theorem exists_of_readProperties {schema : Option TypeSchema} {object : Json}
    {properties : List (String × Value)} {e : String × Value}
    (h : readProperties schema (object.get? "properties") = .ok properties)
    (mem : e ∈ properties) :
    ∃ raw, (e.1, raw) ∈ object.properties ∧ readValue schema e.1 raw = .ok e.2 := by
  unfold Json.properties
  split
  next members served =>
    rw [served, readProperties_obj] at h
    obtain ⟨x, hx, hread⟩ := exists_of_mapM_ok h mem
    cases hv : readValue schema x.1 x.2 with
    | error fault =>
        rw [hv] at hread
        cases hread
    | ok v =>
        rw [hv] at hread
        cases hread
        exact ⟨x.2, hx, hv⟩
  next other =>
    unfold readProperties at h
    split at h
    next members served => exact absurd served (other members)
    next =>
      cases h
      cases mem

theorem Entity.readBy_of_ofJson {type : String} {id : UInt64} {object : Json}
    {schema : Option TypeSchema} {e : Entity} (he : ofJson type id object schema = .ok e) :
    e.ReadBy schema object := by
  obtain ⟨members, rfl⟩ := exists_members_of_ofJson he
  obtain ⟨properties, -, -, -, hproperties, -, -, -, rfl⟩ := ofJson_obj_eq_ok_iff.mp he
  intro name v hv
  have mem : (name, v) ∈ properties :=
    SortedMap.mem_of_mem_ofList (SortedMap.get?_eq_some_iff.mp hv)
  have hread : readProperties schema ((Json.obj members).get? "properties") = .ok properties :=
    hproperties
  obtain ⟨raw, hraw, read⟩ := exists_of_readProperties hread mem
  refine ⟨raw, hraw, ?_⟩
  cases schema with
  | some described => exact read
  | none => exact (Except.ok.inj read).symm

namespace Session

open EntityClient.Action

variable {σ : Type}

/-! Loading -/

/-- What the store serves as the schema. -/
def fetched (t : Transport σ) (remote : σ) : Except Failure Schema :=
  (t.read "/definition" [("format", "full")] remote).1.bind Schema.ofJson

/-- Without a schema one is asked for, and kept if the answer can be read. -/
theorem exec_loadSchema_absent (t : Transport σ) {s : Session σ} (absent : s.schema = none) :
    exec (loadSchema t) s =
      (fetched t s.remote, { s with
        remote := (t.read "/definition" [("format", "full")] s.remote).2
        schema := (fetched t s.remote).toOption }) := by
  obtain ⟨remote, settings, pool, schema⟩ := s
  cases absent
  rw [loadSchema, exec_bind_of_ok (exec_get _)]
  simp only [exec_bind, exec_read, fetched]
  cases (t.read "/definition" [("format", "full")] remote).1 with
  | error e => rfl
  | ok raw =>
      simp only [exec_liftM, Except.bind]
      cases Schema.ofJson raw with
      | error e => rfl
      | ok schema => rfl

/-- Where datatypes are wanted, there is a schema once it has been ensured. -/
theorem schema_of_ensured {t : Transport σ} {s s' : Session σ} (typed : s.settings.typed = true)
    (ensured : exec (ensureSchema t) s = (.ok (), s')) : ∃ D, s'.schema = some D := by
  cases hs : s.schema with
  | some D =>
      rw [exec_ensureSchema_idle t fun _ => by simp [hs]] at ensured
      cases ensured
      exact ⟨D, hs⟩
  | none =>
      rw [exec_ensureSchema_needed t typed hs, exec_loadSchema_absent t hs] at ensured
      cases hD : fetched t s.remote with
      | error e =>
          rw [hD] at ensured
          cases ensured
      | ok D =>
          rw [hD] at ensured
          cases ensured
          exact ⟨D, rfl⟩

/-! Keeping -/

/-- A schema that was there is there. -/
def Keeps (s s' : Session σ) : Prop := ∀ D, s.schema = some D → s'.schema = some D

instance : Std.Refl (Keeps (σ := σ)) := ⟨fun _ _ h => h⟩

instance : IsTrans (Session σ) Keeps := ⟨fun _ _ _ h k D hD => k D (h D hD)⟩

theorem keeps_calling (t : Transport σ) : Calling t Keeps where
  read _ _ _ _ h := h
  schema s schema absent D h := by
    rw [absent] at h
    cases h
  pool _ _ _ h := h
  write _ _ _ h := h
  settings _ _ _ h := h

/-- The schema is there, and neither loading nor ensuring it does anything. -/
structure Loaded (t : Transport σ) (D : Schema) (s : Session σ) : Prop where
  schema : s.schema = some D
  loads : exec (loadSchema t) s = (.ok D, s)
  ensures : exec (ensureSchema t) s = (.ok (), s)

theorem Loaded.of_schema (t : Transport σ) {D : Schema} {s : Session σ}
    (hs : s.schema = some D) : Loaded t D s :=
  ⟨hs, exec_loadSchema_loaded t hs, exec_ensureSchema_idle t fun _ => by simp [hs]⟩

/-! Trying again -/

/-- Apart from the pool the sessions are the same. -/
def Beside (s s' : Session σ) : Prop := ∃ pool, s' = { s with pool }

instance : Std.Refl (Beside (σ := σ)) := ⟨fun s => ⟨s.pool, rfl⟩⟩

instance : IsTrans (Session σ) Beside where
  trans s₁ s₂ s₃ := by
    rintro ⟨pool, rfl⟩ ⟨pool', rfl⟩
    exact ⟨pool', rfl⟩

/-- What goes on after the schema has been ensured, and touches the pool alone, leaves what loading
the schema has left. -/
theorem beside_of_ensured {α : Type} (t : Transport σ) {s : Session σ}
    {f : Unit → Action σ α} (typed : s.settings.typed = true) (absent : s.schema = none)
    (hf : ∀ s', Beside s' (exec (f ()) s').2) :
    Beside (exec (loadSchema t) s).2 (exec (ensureSchema t >>= f) s).2 := by
  rw [exec_bind, exec_ensureSchema_needed t typed absent]
  obtain ⟨x | D, s'⟩ := exec (loadSchema t) s
  · exact refl s'
  · exact hf s'

theorem find_loads (t : Transport σ) {i : Identity} {raw : Json} {s : Session σ}
    (typed : s.settings.typed = true) (absent : s.schema = none)
    (uncached : s.pool.lookup i = none) (served : (t.read i.path [] s.remote).1 = .ok raw) :
    Beside (exec (loadSchema t) { s with remote := (t.read i.path [] s.remote).2 }).2
      (exec (find t i) s).2 := by
  have hread : exec (read t i.path []) s =
      (.ok raw, { s with remote := (t.read i.path [] s.remote).2 }) := by rw [exec_read, served]
  rw [find, exec_bind_of_ok (exec_get s), uncached]
  simp only
  rw [exec_bind_of_ok hread]
  refine beside_of_ensured t typed absent fun s₁ => ?_
  refine exec_bind_session ?_ fun e s₂ _ => ⟨_, rfl⟩
  rw [exec_readEntity_eq]
  exact refl s₁

theorem list_loads (t : Transport σ) {type : String} {query : Option Filter.Query}
    {order : List (String × String)} {orderText filter : String} {objects : List Json}
    {s : Session σ} (typed : s.settings.typed = true) (absent : s.schema = none)
    (ordered : SortOrder.render order = .ok orderText) (filtered : renderFilter query = .ok filter)
    (served : (t.read ("/" ++ type) (listParameters filter orderText true) s.remote).1 =
      .ok (.arr objects)) :
    Beside (exec (loadSchema t) { s with
        remote := (t.read ("/" ++ type) (listParameters filter orderText true) s.remote).2 }).2
      (exec (list t type query order true) s).2 := by
  rw [list, ordered, filtered]
  rw [exec_bind_of_ok (exec_liftM (.ok orderText) s), exec_bind_of_ok (exec_liftM (.ok filter) s)]
  have harray : listedObjects ("/" ++ type) (.arr objects) = .ok objects := rfl
  simp only
  rw [exec_bind, exec_read, served]
  simp only [if_true]
  rw [harray, exec_bind_of_ok (exec_liftM (.ok objects) _)]
  refine beside_of_ensured t typed absent fun s₁ => ?_
  refine exec_bind_session ?_ fun ids s₂ _ => refl s₂
  refine exec_mapM_session (fun object s₂ => ?_) objects s₁
  rw [exec_listObject]
  split
  · exact ⟨_, rfl⟩
  · exact refl s₂

/-- Without a schema, whatever needs one asks for it anew: loading it, and, where datatypes are
wanted, finding and listing in full as soon as the store has served the objects. -/
structure Asks (t : Transport σ) (s : Session (σ × List Request)) : Prop where
  load : exec (loadSchema t.recorded) s = (fetched t.recorded s.remote, { s with
    remote := (t.recorded.read "/definition" [("format", "full")] s.remote).2
    schema := (fetched t.recorded s.remote).toOption })
  loadLog : (exec (loadSchema t.recorded) s).2.remote.2 = s.remote.2 ++ [schemaRequest]
  find : s.settings.typed = true → ∀ i raw, s.pool.lookup i = none →
    (t.recorded.read i.path [] s.remote).1 = .ok raw →
    (exec (find t.recorded i) s).2.remote.2 =
        s.remote.2 ++ [.read i.path [], schemaRequest] ∧
      (exec (Session.find t.recorded i) s).2.schema =
        (fetched t.recorded (t.recorded.read i.path [] s.remote).2).toOption
  list : s.settings.typed = true → ∀ type query order orderText filter objects,
    SortOrder.render order = .ok orderText → renderFilter query = .ok filter →
    (t.recorded.read ("/" ++ type) (listParameters filter orderText true) s.remote).1 =
      .ok (.arr objects) →
    (exec (list t.recorded type query order true) s).2.remote.2 =
        s.remote.2 ++ [.read ("/" ++ type) (listParameters filter orderText true), schemaRequest] ∧
      (exec (Session.list t.recorded type query order true) s).2.schema =
        (fetched t.recorded (t.recorded.read ("/" ++ type)
          (listParameters filter orderText true) s.remote).2).toOption

theorem asks_of_absent (t : Transport σ) {s : Session (σ × List Request)}
    (absent : s.schema = none) : Asks t s where
  load := exec_loadSchema_absent _ absent
  loadLog := (quiet_loadSchema t absent).log
  find typed i raw uncached served := by
    obtain ⟨pool, hfind⟩ := find_loads t.recorded typed absent uncached served
    rw [hfind, exec_loadSchema_absent t.recorded (s := { s with
      remote := (t.recorded.read i.path [] s.remote).2 }) absent]
    exact ⟨List.append_assoc .., rfl⟩
  list typed type query order orderText filter objects ordered filtered served := by
    obtain ⟨pool, hlist⟩ := list_loads t.recorded typed absent ordered filtered served
    rw [hlist, exec_loadSchema_absent t.recorded (s := { s with
      remote :=
        (t.recorded.read ("/" ++ type) (listParameters filter orderText true) s.remote).2 }) absent]
    exact ⟨List.append_assoc .., rfl⟩

/-! Hydrating -/

/-- The entity is what the schema makes of an object of this type: every property is read by it, or
as JSON shows it if the schema does not describe the type. -/
structure Hydrated (D : Schema) (i : Identity) (object : Json) (e : Entity) : Prop where
  read : Entity.ofJson i.type i.id object (D.get? i.type) = .ok e
  properties : e.ReadBy (D.get? i.type) object

theorem hydrated_of_ofJson {D : Schema} {i : Identity} {object : Json} {e : Entity}
    (read : Entity.ofJson i.type i.id object (D.get? i.type) = .ok e) : Hydrated D i object e :=
  ⟨read, Entity.readBy_of_ofJson read⟩

theorem find_hydrates (t : Transport σ) (i : Identity) {s : Session σ}
    (typed : s.settings.typed = true) :
    (exec (find t i) s).2.pool = s.pool ∨
      ∃ D raw e, (exec (find t i) s).2.schema = some D ∧
        (t.read i.path [] s.remote).1 = .ok raw ∧ Hydrated D i raw e ∧
        (exec (find t i) s).2.pool = (s.pool.enter i e).2 := by
  cases hi : s.pool.lookup i with
  | some h =>
      rw [exec_find_cached t hi]
      exact .inl rfl
  | none =>
      obtain ⟨raw, s₁, e, served, ensured, read, found⟩ | ⟨x, s₁, failed, hpool⟩ :=
        exec_find_served t hi
      · obtain ⟨D, hD⟩ := schema_of_ensured
          (s := { s with remote := (t.read i.path [] s.remote).2 }) typed ensured
        rw [hD] at read
        rw [found]
        exact .inr ⟨D, raw, e, hD, served, hydrated_of_ofJson read, rfl⟩
      · rw [failed]
        exact .inl hpool

/-- Where datatypes are wanted, a listing that has been opened has a schema. -/
theorem schema_of_opened {t : Transport σ} {type : String} {query : Option Filter.Query}
    {order : List (String × String)} {objects : List Json} {s s' : Session σ}
    (typed : s.settings.typed = true)
    (opened : exec (openListing t type query order) s = (.ok objects, s')) :
    ∃ D, s'.schema = some D := by
  unfold openListing at opened
  obtain ⟨orderText, s₁, ordered, opened⟩ := exec_bind_succeeded opened
  obtain ⟨-, rfl⟩ := Prod.mk.inj ordered
  obtain ⟨filter, s₂, filtered, opened⟩ := exec_bind_succeeded opened
  obtain ⟨-, rfl⟩ := Prod.mk.inj filtered
  obtain ⟨answer, s₃, asked, opened⟩ := exec_bind_succeeded opened
  obtain ⟨-, rfl⟩ := Prod.mk.inj asked
  obtain ⟨objects', s₄, array, opened⟩ := exec_bind_succeeded opened
  obtain ⟨-, rfl⟩ := Prod.mk.inj array
  obtain ⟨_, s₅, ensured, opened⟩ := exec_bind_succeeded opened
  cases opened
  exact schema_of_ensured (s := { s with
    remote := (t.read ("/" ++ type) (listParameters filter orderText true) s.remote).2 })
    typed ensured

/-- Taking in a row of objects reads each by the schema that is there, up to the first that cannot
be read. -/
theorem exec_mapM_listObject_hydrates (type : String) (objects : List Json) {s : Session σ}
    {D : Schema} (loaded : s.schema = some D) :
    ∃ listed, (exec (objects.mapM (listObject type ("/" ++ type))) s).2 =
        { s with pool := s.pool.listAll s.settings.refreshListed type listed } ∧
      ∀ x ∈ listed, ∃ object ∈ objects, Hydrated D ⟨type, x.1⟩ object x.2 := by
  have htype : s.typeSchema type = D.get? type := by rw [typeSchema, loaded]; rfl
  have hydrates {done : List Json} {listed : List (UInt64 × Entity)}
      (readable : done.mapM (readListed (s.typeSchema type) type) = .ok listed) :
      ∀ x ∈ listed, ∃ object ∈ done, Hydrated D ⟨type, x.1⟩ object x.2 := by
    intro x mem
    obtain ⟨object, hobject, read⟩ := exists_of_mapM_ok readable mem
    rw [htype] at read
    exact ⟨object, hobject, hydrated_of_ofJson (ofJson_of_readListed read)⟩
  rcases hrow : exec (objects.mapM (listObject type ("/" ++ type))) s with ⟨x | ids, s'⟩
  · obtain ⟨done, object, rest, ids, s₁, rfl, hdone, hobject⟩ := exec_mapM_failed hrow
    obtain ⟨listed, readable, -, rfl⟩ := exec_mapM_listObject hdone
    rw [exec_listObject] at hobject
    split at hobject
    next => cases hobject
    next =>
      cases hobject
      refine ⟨listed, rfl, fun x mem => ?_⟩
      obtain ⟨object', hobject', hydrated⟩ := hydrates readable x mem
      exact ⟨object', List.mem_append_left _ hobject', hydrated⟩
  · obtain ⟨listed, readable, -, rfl⟩ := exec_mapM_listObject hrow
    exact ⟨listed, rfl, hydrates readable⟩

theorem list_hydrates (t : Transport σ) (type : String) (query : Option Filter.Query)
    (order : List (String × String)) {s : Session σ} (typed : s.settings.typed = true) :
    (exec (list t type query order true) s).2.pool = s.pool ∨
      ∃ D orderText filter objects listed,
        (exec (list t type query order true) s).2.schema = some D ∧
        (t.read ("/" ++ type) (listParameters filter orderText true) s.remote).1 =
          .ok (.arr objects) ∧
        (∀ x ∈ listed, ∃ object ∈ objects, Hydrated D ⟨type, x.1⟩ object x.2) ∧
        (exec (list t type query order true) s).2.pool =
          s.pool.listAll s.settings.refreshListed type listed := by
  rw [list_full]
  obtain ⟨x, remote, schema, hopen⟩ |
    ⟨orderText, filter, objects, remote, schema, -, -, served, hopen⟩ :=
    exec_openListing t type query order s
  · rw [exec_bind_of_error hopen]
    exact .inl rfl
  · obtain ⟨D, hD⟩ := schema_of_opened typed hopen
    obtain ⟨listed, hrow, hydrated⟩ :=
      exec_mapM_listObject_hydrates type objects hD
    have hlist : (exec (openListing t type query order >>= fun objects => do
        return (⟨type, ← objects.mapM (listObject type ("/" ++ type))⟩ : IdList)) s).2 =
        (exec (objects.mapM (listObject type ("/" ++ type))) { s with remote, schema }).2 := by
      rw [exec_bind_of_ok hopen, exec_bind]
      obtain ⟨x | ids, s'⟩ :=
        exec (objects.mapM (listObject type ("/" ++ type))) { s with remote, schema } <;> rfl
    rw [hlist, hrow]
    exact .inr ⟨D, orderText, filter, objects, listed, hD, served, hydrated, rfl⟩

/-- The schema is loaded once and used for all. In every state of every run over every store: a
schema that is there stays the same, and loading it sends nothing. Without one the next call that
needs it asks for it, whatever failed before. And where datatypes are wanted, finding and listing in
full bring in only what has been read by the schema that is then there. -/
theorem run_schema (t : Transport σ) (s₀ : Session (σ × List Request)) (calls : List Call) :
    let s := run t.recorded s₀ calls
    (∀ D, s.schema = some D → ∀ more, Loaded t.recorded D (run t.recorded s more)) ∧
    (s.schema = none → Asks t s) ∧
    (s.settings.typed = true →
      (∀ i, (exec (find t.recorded i) s).2.pool = s.pool ∨
        ∃ D raw e, (exec (find t.recorded i) s).2.schema = some D ∧
          (t.recorded.read i.path [] s.remote).1 = .ok raw ∧ Hydrated D i raw e ∧
          (exec (find t.recorded i) s).2.pool = (s.pool.enter i e).2) ∧
      ∀ type query order, (exec (list t.recorded type query order true) s).2.pool = s.pool ∨
        ∃ D orderText filter objects listed,
          (exec (list t.recorded type query order true) s).2.schema = some D ∧
          (t.recorded.read ("/" ++ type) (listParameters filter orderText true) s.remote).1 =
            .ok (.arr objects) ∧
          (∀ x ∈ listed, ∃ object ∈ objects, Hydrated D ⟨type, x.1⟩ object x.2) ∧
          (exec (list t.recorded type query order true) s).2.pool =
            s.pool.listAll s.settings.refreshListed type listed) := by
  intro s
  refine ⟨fun D hD more => ?_, asks_of_absent t, fun typed => ⟨fun i => ?_, ?_⟩⟩
  · exact Loaded.of_schema _ ((keeps_calling t.recorded).run s more D hD)
  · exact find_hydrates t.recorded i typed
  · exact fun type query order => list_hydrates t.recorded type query order typed

end Session
end EntityClient
