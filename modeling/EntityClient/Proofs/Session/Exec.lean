import EntityClient.Proofs.Outcome
import EntityClient.Proofs.Session.Pool
import EntityClient.Session.Lookup
import EntityClient.Session.Revision
import EntityClient.Session.Write
import Mathlib.Order.Defs.Unbundled

/-!
Executing actions: what each action answers and what it leaves behind, without the monad. Reading
and writing the store never touch the pool, and what a reading brings becomes an entity with the
identity that was asked for.
-/

namespace EntityClient

namespace Action

variable {σ α β : Type}

/-- The answer of an action and the session after it. -/
def exec (a : Action σ α) (s : Session σ) : Except Failure α × Session σ := a.run.run s

@[simp]
theorem exec_throw (e : Failure) (s : Session σ) :
    exec (throw e : Action σ α) s = (.error e, s) := rfl

@[simp]
theorem exec_get (s : Session σ) : exec (get : Action σ (Session σ)) s = (.ok s, s) := rfl

@[simp]
theorem exec_liftM (r : Except Failure α) (s : Session σ) :
    exec (liftM r : Action σ α) s = (r, s) := rfl

theorem exec_bind (a : Action σ α) (f : α → Action σ β) (s : Session σ) :
    exec (a >>= f) s =
      match exec a s with
      | (.ok x, s') => exec (f x) s'
      | (.error e, s') => (.error e, s') := by
  change (match a s with | (x, s') => ExceptT.bindCont f x s') = _
  change _ = match a s with
    | (.ok x, s') => exec (f x) s'
    | (.error e, s') => (.error e, s')
  obtain ⟨x | x, s'⟩ := a s <;> rfl

theorem exec_map (f : α → β) (a : Action σ α) (s : Session σ) :
    exec (f <$> a) s = ((exec a s).1.map f, (exec a s).2) := by
  rw [map_eq_pure_bind, exec_bind]
  obtain ⟨x | x, s'⟩ := exec a s <;> rfl

theorem exec_bind_of_ok {a : Action σ α} {s s' : Session σ} {x : α}
    (h : exec a s = (.ok x, s')) (f : α → Action σ β) : exec (a >>= f) s = exec (f x) s' := by
  rw [exec_bind, h]

theorem exec_bind_of_error {a : Action σ α} {s s' : Session σ} {e : Failure}
    (h : exec a s = (.error e, s')) (f : α → Action σ β) : exec (a >>= f) s = (.error e, s') := by
  rw [exec_bind, h]

/-- An action of two parts fails in the first, or in the second where the first has left off. -/
theorem exec_bind_failed {a : Action σ α} {f : α → Action σ β} {s s' : Session σ} {e : Failure}
    (h : exec (a >>= f) s = (.error e, s')) :
    exec a s = (.error e, s') ∨
      ∃ x s₁, exec a s = (.ok x, s₁) ∧ exec (f x) s₁ = (.error e, s') := by
  rcases hr : exec a s with ⟨e₁ | x, s₁⟩
  · rw [exec_bind_of_error hr] at h
    cases h
    exact .inl rfl
  · rw [exec_bind_of_ok hr] at h
    exact .inr ⟨x, s₁, rfl, h⟩

/-- An action of two parts succeeds in both. -/
theorem exec_bind_succeeded {a : Action σ α} {f : α → Action σ β} {s s' : Session σ} {y : β}
    (h : exec (a >>= f) s = (.ok y, s')) :
    ∃ x s₁, exec a s = (.ok x, s₁) ∧ exec (f x) s₁ = (.ok y, s') := by
  rcases hr : exec a s with ⟨e | x, s₁⟩
  · rw [exec_bind_of_error hr] at h
    cases h
  · rw [exec_bind_of_ok hr] at h
    exact ⟨x, s₁, rfl, h⟩

/-- A row of actions fails at one of them, and those before it have succeeded. -/
theorem exec_mapM_failed {f : α → Action σ β} {l : List α} {s s' : Session σ} {e : Failure}
    (h : exec (l.mapM f) s = (.error e, s')) :
    ∃ done x rest ys s₁, l = done ++ x :: rest ∧ exec (done.mapM f) s = (.ok ys, s₁) ∧
      exec (f x) s₁ = (.error e, s') := by
  induction l generalizing s with
  | nil => cases h
  | cons x rest ih =>
      rw [List.mapM_cons] at h
      obtain h | ⟨y, s₁, hx, h⟩ := exec_bind_failed h
      · exact ⟨[], x, rest, [], s, rfl, rfl, h⟩
      · obtain h | ⟨ys, s₂, -, h⟩ := exec_bind_failed h
        · obtain ⟨done, x', rest', ys, s₂, rfl, hdone, hx'⟩ := ih h
          refine ⟨x :: done, x', rest', y :: ys, s₂, rfl, ?_, hx'⟩
          rw [List.mapM_cons, exec_bind_of_ok hx, exec_bind_of_ok hdone]
          rfl
        · cases h

section Relations

variable {R : Session σ → Session σ → Prop} [IsTrans (Session σ) R]

/-- What both parts of an action do, the action does. -/
theorem exec_bind_session {a : Action σ α} {f : α → Action σ β} {s : Session σ}
    (ha : R s (exec a s).2)
    (hf : ∀ x s', exec a s = (.ok x, s') → R s' (exec (f x) s').2) :
    R s (exec (a >>= f) s).2 := by
  rcases hr : exec a s with ⟨e | x, s'⟩
  · rw [exec_bind_of_error hr]
    rwa [hr] at ha
  · rw [exec_bind_of_ok hr]
    rw [hr] at ha
    exact IsTrans.trans _ _ _ ha (hf x s' hr)

/-- What one action does, a row of them does. -/
theorem exec_mapM_session [Std.Refl R] {f : α → Action σ β}
    (hf : ∀ x s, R s (exec (f x) s).2) (l : List α) (s : Session σ) :
    R s (exec (l.mapM f) s).2 := by
  induction l generalizing s with
  | nil => exact refl s
  | cons x rest ih =>
      rw [List.mapM_cons]
      refine exec_bind_session (hf x s) fun y s₁ _ => ?_
      exact exec_bind_session (ih s₁) fun ys s₂ _ => refl s₂

end Relations

variable {R : Pool → Pool → Prop} [IsTrans Pool R]

instance : IsTrans (Session σ) (InvImage R Session.pool) :=
  ⟨fun a b c => IsTrans.trans (r := R) a.pool b.pool c.pool⟩

/-- What both parts of an action do to the pool, the action does. -/
theorem exec_bind_pool {a : Action σ α} {f : α → Action σ β} {s : Session σ}
    (ha : R s.pool (exec a s).2.pool)
    (hf : ∀ x s', exec a s = (.ok x, s') → R s'.pool (exec (f x) s').2.pool) :
    R s.pool (exec (a >>= f) s).2.pool :=
  exec_bind_session (R := InvImage R Session.pool) ha hf

end Action

/-- What is sent to create or update the entity. -/
def Entity.saving (e : Entity) : Write :=
  match e.id with
  | some id => .put (Identity.path ⟨e.type, id⟩) e.payload
  | none => .post ("/" ++ e.type) e.payload

/-- The id that the entity is stored with: its own, or else the one that the reply names. -/
def Entity.storedId (e : Entity) (reply : String) : Except Failure UInt64 :=
  match e.id with
  | some id => .ok id
  | none => Session.createdId reply

theorem Entity.storedId_eq_ok_iff {e : Entity} {reply : String} {id : UInt64} :
    e.storedId reply = .ok id ↔
      e.id = some id ∨ e.id = none ∧ Session.createdId reply = .ok id := by
  rw [storedId]
  cases e.id <;> simp

theorem Entity.identity_ofJson {type : String} {id : UInt64} {raw : Json}
    {schema : Option TypeSchema} {e : Entity} (he : ofJson type id raw schema = .ok e) :
    e.identity = some ⟨type, id⟩ := by
  cases raw with
  | obj members =>
      obtain ⟨properties, -, he⟩ := exists_of_bind_ok he
      obtain ⟨children, -, he⟩ := exists_of_bind_ok he
      obtain ⟨parents, -, he⟩ := exists_of_bind_ok he
      obtain ⟨links, -, he⟩ := exists_of_bind_ok he
      cases he
      simp [identity, Entity.type]
  | _ => cases he

namespace Session

open EntityClient.Action

variable {σ : Type}

@[simp]
theorem exec_read (t : Transport σ) (path : String) (query : List (String × String))
    (s : Session σ) :
    exec (read t path query) s =
      ((t.read path query s.remote).1, { s with remote := (t.read path query s.remote).2 }) := rfl

@[simp]
theorem exec_write (t : Transport σ) (w : Write) (s : Session σ) :
    exec (write t w) s =
      ((t.write w s.remote).1, { s with remote := (t.write w s.remote).2 }) := rfl

theorem exec_withPool {α : Type} (f : Pool → α × Pool) (s : Session σ) :
    exec (withPool f) s = (.ok (f s.pool).1, { s with pool := (f s.pool).2 }) := rfl

/-- Loading the schema changes the store's state and the schema alone. -/
theorem exec_loadSchema_frame (t : Transport σ) (s : Session σ) :
    ∃ remote schema, (exec (loadSchema t) s).2 = { s with remote, schema } := by
  simp only [loadSchema, exec_bind, exec_get]
  cases s.schema with
  | some schema => exact ⟨s.remote, s.schema, rfl⟩
  | none =>
      simp only [exec_bind, exec_read]
      cases (t.read "/definition" [("format", "full")] s.remote).1 with
      | error e => exact ⟨_, s.schema, rfl⟩
      | ok raw =>
          simp only [exec_liftM]
          cases Schema.ofJson raw with
          | error e => exact ⟨_, s.schema, rfl⟩
          | ok schema => exact ⟨_, some schema, rfl⟩

theorem exec_loadSchema_pool (t : Transport σ) (s : Session σ) :
    (exec (loadSchema t) s).2.pool = s.pool := by
  obtain ⟨remote, schema, h⟩ := exec_loadSchema_frame t s
  rw [h]

theorem exec_loadSchema_loaded (t : Transport σ) {s : Session σ} {D : Schema}
    (loaded : s.schema = some D) : exec (loadSchema t) s = (.ok D, s) := by
  rw [loadSchema, exec_bind_of_ok (exec_get s), loaded]
  rfl

/-- A session that does not want datatypes, or has its schema, need not load one. -/
theorem exec_ensureSchema_idle (t : Transport σ) {s : Session σ}
    (idle : s.settings.typed = true → s.schema ≠ none) :
    exec (ensureSchema t) s = (.ok (), s) := by
  rw [ensureSchema, exec_bind_of_ok (exec_get s), if_neg]
  · rfl
  · exact fun needed => idle needed.1 (Option.isNone_iff_eq_none.mp needed.2)

theorem exec_ensureSchema_needed (t : Transport σ) {s : Session σ}
    (typed : s.settings.typed = true) (absent : s.schema = none) :
    exec (ensureSchema t) s =
      ((exec (loadSchema t) s).1.map fun _ => (), (exec (loadSchema t) s).2) := by
  rw [ensureSchema, exec_bind_of_ok (exec_get s),
    if_pos ⟨typed, Option.isNone_iff_eq_none.mpr absent⟩, exec_bind]
  obtain ⟨e | D, s'⟩ := exec (loadSchema t) s <;> rfl

theorem exec_ensureSchema_frame (t : Transport σ) (s : Session σ) :
    ∃ remote schema, (exec (ensureSchema t) s).2 = { s with remote, schema } := by
  by_cases idle : s.settings.typed = true → s.schema ≠ none
  · rw [exec_ensureSchema_idle t idle]
    exact ⟨s.remote, s.schema, rfl⟩
  · obtain ⟨typed, absent⟩ := Classical.not_imp.mp idle
    rw [exec_ensureSchema_needed t typed (Classical.not_not.mp absent)]
    exact exec_loadSchema_frame t s

theorem exec_ensureSchema_pool (t : Transport σ) (s : Session σ) :
    (exec (ensureSchema t) s).2.pool = s.pool := by
  obtain ⟨remote, schema, h⟩ := exec_ensureSchema_frame t s
  rw [h]

theorem exec_readEntity_eq (i : Identity) (raw : Json) (s : Session σ) :
    exec (readEntity i raw) s =
      (Entity.ofJson i.type i.id raw (s.schema.bind (·.get? i.type)), s) := by
  simp only [readEntity, exec_bind, exec_get, exec_liftM]

/-- Reading an entity changes nothing, and gives it the identity asked for. -/
theorem exec_readEntity (i : Identity) (raw : Json) (s : Session σ) :
    (∃ e, e.identity = some i ∧ exec (readEntity i raw) s = (.ok e, s)) ∨
      ∃ x, exec (readEntity i raw) s = (.error x, s) := by
  rw [exec_readEntity_eq]
  cases he : Entity.ofJson i.type i.id raw (s.schema.bind (·.get? i.type)) with
  | ok e => exact .inl ⟨e, Entity.identity_ofJson he, rfl⟩
  | error x => exact .inr ⟨x, rfl⟩

/-! Finding -/

theorem exec_find_cached (t : Transport σ) {i : Identity} {h : Handle} {s : Session σ}
    (hi : s.pool.lookup i = some h) : exec (find t i) s = (.ok h, s) := by
  rw [find, exec_bind_of_ok (exec_get s), hi]
  rfl

/-- What is not cached is asked for. The object served becomes a new cached instance, or nothing
happens to the pool. -/
theorem exec_find_served (t : Transport σ) {i : Identity} {s : Session σ}
    (hi : s.pool.lookup i = none) :
    (∃ raw s₁ e, (t.read i.path [] s.remote).1 = .ok raw ∧
        exec (ensureSchema t) { s with remote := (t.read i.path [] s.remote).2 } = (.ok (), s₁) ∧
        Entity.ofJson i.type i.id raw (s₁.schema.bind (·.get? i.type)) = .ok e ∧
        exec (find t i) s =
          (.ok s.pool.instances.length, { s₁ with pool := (s.pool.enter i e).2 })) ∨
      ∃ x s₁, exec (find t i) s = (.error x, s₁) ∧ s₁.pool = s.pool := by
  rw [find, exec_bind_of_ok (exec_get s), hi]
  simp only
  rw [exec_bind, exec_read]
  cases (t.read i.path [] s.remote).1 with
  | error x => exact .inr ⟨x, _, rfl, rfl⟩
  | ok raw =>
      simp only
      have hpool := exec_ensureSchema_pool t { s with remote := (t.read i.path [] s.remote).2 }
      rcases hschema : exec (ensureSchema t) { s with remote := (t.read i.path [] s.remote).2 }
        with ⟨x | _, s₁⟩
      · rw [exec_bind_of_error hschema]
        rw [hschema] at hpool
        exact .inr ⟨x, s₁, rfl, hpool⟩
      · rw [exec_bind_of_ok hschema]
        rw [hschema] at hpool
        have hread := exec_readEntity_eq i raw s₁
        cases he : Entity.ofJson i.type i.id raw (s₁.schema.bind (·.get? i.type)) with
        | error x =>
            rw [he] at hread
            rw [exec_bind_of_error hread]
            exact .inr ⟨x, s₁, rfl, hpool⟩
        | ok e =>
            rw [he] at hread
            rw [exec_bind_of_ok hread]
            have hpool' : s₁.pool = s.pool := hpool
            refine .inl ⟨raw, s₁, e, rfl, rfl, he, ?_⟩
            rw [← hpool']
            rfl

/-! Writing -/

section Writing

variable (t : Transport σ) {h : Handle} {e : Entity} {id : UInt64} {s : Session σ}

theorem exec_save_unknown (he : s.pool.get? h = none) : exec (save t h) s = (.ok (), s) := by
  rw [save, exec_bind_of_ok (exec_get s), he]
  rfl

theorem exec_save_readonly (he : s.pool.get? h = some e) (hr : e.readonly = true) :
    exec (save t h) s = (.error (.readonly e.type e.id), s) := by
  rw [save, exec_bind_of_ok (exec_get s), he]
  simp [hr]

theorem exec_save (he : s.pool.get? h = some e) (hr : e.readonly = false) :
    exec (save t h) s =
      match t.write e.saving s.remote with
      | (.ok reply, remote) =>
          match e.storedId reply with
          | .ok id => (.ok (), { s with
              remote
              pool := (s.pool.update h fun e => { e with id := some id }).settle ⟨e.type, id⟩ h })
          | .error x => (.error x, { s with remote })
      | (.error x, remote) => (.error x, { s with remote }) := by
  rw [save, exec_bind_of_ok (exec_get s), he]
  cases hid : e.id with
  | some id =>
      -- the id is there already, so setting it changes nothing
      have same : s.pool.update h (fun e => { e with id := some id }) = s.pool :=
        Pool.update_eq_self he (by rw [← hid])
      simp only [hr, hid, Entity.saving, Entity.storedId, same, Bool.false_eq_true, if_false,
        exec_bind, exec_write]
      obtain ⟨x | reply, r⟩ := t.write (.put (Identity.path ⟨e.type, id⟩) e.payload) s.remote <;>
        rfl
  | none =>
      simp only [hr, hid, Entity.saving, Entity.storedId, Bool.false_eq_true, if_false, exec_bind,
        exec_write, exec_liftM]
      obtain ⟨x | reply, r⟩ := t.write (.post ("/" ++ e.type) e.payload) s.remote
      · rfl
      · simp only
        cases createdId reply <;> rfl

theorem exec_delete_unknown (he : s.pool.get? h = none) : exec (delete t h) s = (.ok (), s) := by
  rw [delete, exec_bind_of_ok (exec_get s), he]
  rfl

theorem exec_delete_withoutId (he : s.pool.get? h = some e) (hid : e.identity = none) :
    exec (delete t h) s = (.error (.withoutId e.type), s) := by
  rw [delete, exec_bind_of_ok (exec_get s), he]
  simp [hid]

theorem exec_delete_readonly {i : Identity} (he : s.pool.get? h = some e)
    (hid : e.identity = some i) (hr : e.readonly = true) :
    exec (delete t h) s = (.error (.readonly e.type e.id), s) := by
  rw [delete, exec_bind_of_ok (exec_get s), he]
  simp [hid, hr]

theorem exec_delete {i : Identity} (he : s.pool.get? h = some e) (hid : e.identity = some i)
    (hr : e.readonly = false) :
    exec (delete t h) s =
      match t.write (.delete i.path) s.remote with
      | (.ok _, remote) => (.ok (), { s with remote, pool := s.pool.forget i h })
      | (.error x, remote) => (.error x, { s with remote }) := by
  rw [delete, exec_bind_of_ok (exec_get s), he]
  simp only [hid, hr, Bool.false_eq_true, if_false, exec_bind, exec_write]
  obtain ⟨x | body, r⟩ := t.write (.delete i.path) s.remote <;> rfl

end Writing

end Session
end EntityClient
