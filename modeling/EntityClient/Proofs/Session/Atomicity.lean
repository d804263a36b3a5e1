import EntityClient.Proofs.Session.Exec

/-!
Failed calls on single entities. Saving and deleting are refused without a request, or send one;
when either fails, or finding does, the live instances and the cache are what they were before, and
so is the schema unless finding has loaded it.
-/

namespace EntityClient

namespace Session

open EntityClient.Action

variable {σ : Type}

/-- The requests `sent` were made, and nothing happened to the pool and the settings. -/
structure Quiet (sent : List Request) (s s' : Session (σ × List Request)) : Prop where
  pool : s'.pool = s.pool
  settings : s'.settings = s.settings
  log : s'.remote.2 = s.remote.2 ++ sent

variable {s s₁ s' : Session (σ × List Request)} {sent more : List Request} {α β : Type}

theorem Quiet.refl (s : Session (σ × List Request)) : Quiet [] s s :=
  ⟨rfl, rfl, (List.append_nil _).symm⟩

theorem Quiet.trans (first : Quiet sent s s₁) (second : Quiet more s₁ s') :
    Quiet (sent ++ more) s s' := by
  refine ⟨second.pool.trans first.pool, second.settings.trans first.settings, ?_⟩
  rw [second.log, first.log, List.append_assoc]

/-- An action may go on as long as it sends no more. -/
theorem Quiet.bind {a : Action (σ × List Request) α} {f : α → Action (σ × List Request) β}
    (ha : Quiet sent s (exec a s).2)
    (hf : ∀ x s₁, exec a s = (.ok x, s₁) → Quiet [] s₁ (exec (f x) s₁).2) :
    Quiet sent s (exec (a >>= f) s).2 := by
  rcases hr : exec a s with ⟨e | x, s₁⟩
  · rw [exec_bind_of_error hr]
    rwa [hr] at ha
  · rw [exec_bind_of_ok hr, ← List.append_nil sent]
    rw [hr] at ha
    exact ha.trans (hf x s₁ hr)

theorem quiet_read (t : Transport σ) (path : String) (query : List (String × String))
    (s : Session (σ × List Request)) :
    Quiet [.read path query] s (exec (read t.recorded path query) s).2 := ⟨rfl, rfl, rfl⟩

/-- The request for the schema. -/
def schemaRequest : Request := .read "/definition" [("format", "full")]

theorem quiet_loadSchema (t : Transport σ) (absent : s.schema = none) :
    Quiet [schemaRequest] s (exec (loadSchema t.recorded) s).2 := by
  rw [loadSchema, exec_bind_of_ok (exec_get s), absent]
  refine (quiet_read t _ _ s).bind fun raw s₁ _ => ?_
  exact (Quiet.refl s₁).bind fun schema s₂ _ => ⟨rfl, rfl, (List.append_nil _).symm⟩

/-- Ensuring the schema loads it where there is none, or does nothing. -/
theorem quiet_ensureSchema (t : Transport σ) (s : Session (σ × List Request)) :
    exec (ensureSchema t.recorded) s = (.ok (), s) ∨
      s.settings.typed = true ∧ s.schema = none ∧
        Quiet [schemaRequest] s (exec (ensureSchema t.recorded) s).2 := by
  rw [ensureSchema, exec_bind_of_ok (exec_get s)]
  split
  next needed =>
    have absent : s.schema = none := Option.isNone_iff_eq_none.mp needed.2
    exact .inr ⟨needed.1, absent, (quiet_loadSchema t absent).bind fun _ s₁ _ => .refl s₁⟩
  next => exact .inl rfl

/-! Each way a call can fail -/

/-- A session after a write, whatever the store has answered. -/
theorem quiet_write (t : Transport σ) {w : Write} {answer : Except Failure String}
    {remote : σ × List Request} (written : t.recorded.write w s.remote = (answer, remote)) :
    Quiet [.write w] s { s with remote } :=
  ⟨rfl, rfl, (congrArg (·.2.2) written).symm⟩

theorem save_failed (t : Transport σ) {h : Handle} {e : Entity} {x : Failure}
    (live : s.pool.get? h = some e) (hr : e.readonly = false)
    (failed : exec (save t.recorded h) s = (.error x, s')) :
    s'.schema = s.schema ∧ Quiet [.write e.saving] s s' := by
  rw [exec_save _ live hr] at failed
  split at failed
  next written =>
    -- the store has created the entity, but named no id
    split at failed
    next => cases failed
    next =>
      cases failed
      exact ⟨rfl, quiet_write t written⟩
  next written =>
    cases failed
    exact ⟨rfl, quiet_write t written⟩

theorem delete_failed (t : Transport σ) {h : Handle} {e : Entity} {i : Identity} {x : Failure}
    (live : s.pool.get? h = some e) (named : e.identity = some i) (hr : e.readonly = false)
    (failed : exec (delete t.recorded h) s = (.error x, s')) :
    s'.schema = s.schema ∧ Quiet [.write (.delete i.path)] s s' := by
  rw [exec_delete _ live named hr] at failed
  split at failed
  next => cases failed
  next written =>
    cases failed
    exact ⟨rfl, quiet_write t written⟩

/-- An entity that cannot be read changes nothing, and one that can be read is entered. -/
theorem enter_failed {i : Identity} {raw : Json} {x : Failure}
    (failed : exec (readEntity i raw >>= fun e => withPool (·.enter i e)) s = (.error x, s')) :
    s' = s := by
  obtain ⟨e, -, he⟩ | ⟨y, he⟩ := exec_readEntity i raw s
  · rw [exec_bind_of_ok he] at failed
    cases failed
  · rw [exec_bind_of_error he] at failed
    cases failed
    rfl

theorem find_failed (t : Transport σ) {i : Identity} {x : Failure}
    (failed : exec (find t.recorded i) s = (.error x, s')) :
    Quiet [.read i.path []] s s' ∧ s'.schema = s.schema ∨
      Quiet [.read i.path [], schemaRequest] s s' ∧ s.settings.typed = true ∧ s.schema = none := by
  cases cached : s.pool.lookup i with
  | some h =>
      rw [exec_find_cached _ cached] at failed
      cases failed
  | none =>
      rw [find, exec_bind_of_ok (exec_get s), cached] at failed
      have hread := quiet_read t i.path [] s
      obtain failed | ⟨raw, s₁, hraw, failed⟩ := exec_bind_failed failed
      · rw [failed] at hread
        have hs' : s'.schema = s.schema := (congrArg (·.2.schema) failed).symm
        exact .inl ⟨hread, hs'⟩
      · rw [hraw] at hread
        have hs₁ : s₁.schema = s.schema := (congrArg (·.2.schema) hraw).symm
        obtain hschema | ⟨typed, absent, loaded⟩ := quiet_ensureSchema t s₁
        · rw [exec_bind_of_ok hschema] at failed
          cases enter_failed failed
          exact .inl ⟨hread, hs₁⟩
        · refine .inr ⟨?_, hread.settings ▸ typed, hs₁ ▸ absent⟩
          obtain failed | ⟨_, s₂, hload, failed⟩ := exec_bind_failed failed
          · rw [failed] at loaded
            exact hread.trans loaded
          · rw [hload] at loaded
            cases enter_failed failed
            exact hread.trans loaded

/-- What a failed call leaves, in every state and whatever the store does: the pool as it was, with
every instance and the whole cache, and the schema, unless finding has loaded the first one. A call
that is refused sends nothing, and a save or a deletion that fails otherwise has sent one request. -/
theorem failure_keeps_state (t : Transport σ) (s : Session (σ × List Request)) :
    (∀ h e, s.pool.get? h = some e →
      (e.readonly = true → exec (save t.recorded h) s = (.error (.readonly e.type e.id), s)) ∧
      (e.readonly = false → ∀ x s', exec (save t.recorded h) s = (.error x, s') →
        s'.schema = s.schema ∧ Quiet [.write e.saving] s s') ∧
      (e.id = none → exec (delete t.recorded h) s = (.error (.withoutId e.type), s)) ∧
      ∀ i, e.identity = some i →
        (e.readonly = true → exec (delete t.recorded h) s = (.error (.readonly e.type e.id), s)) ∧
        (e.readonly = false → ∀ x s', exec (delete t.recorded h) s = (.error x, s') →
          s'.schema = s.schema ∧ Quiet [.write (.delete i.path)] s s')) ∧
    ∀ i x s', exec (find t.recorded i) s = (.error x, s') →
      Quiet [.read i.path []] s s' ∧ s'.schema = s.schema ∨
        Quiet [.read i.path [], schemaRequest] s s' ∧ s.settings.typed = true ∧
          s.schema = none := by
  refine ⟨fun h e live => ⟨?_, ?_, ?_, fun i named => ⟨?_, ?_⟩⟩, fun i x s' => find_failed t⟩
  · exact exec_save_readonly _ live
  · exact fun hr x s' => save_failed t live hr
  · exact fun unnamed => exec_delete_withoutId _ live (by rw [Entity.identity, unnamed]; rfl)
  · exact exec_delete_readonly _ live named
  · exact fun hr x s' => delete_failed t live named hr

end Session
end EntityClient
