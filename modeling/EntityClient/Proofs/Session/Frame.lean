import EntityClient.Proofs.Session.Run

/-!
What calls do to the whole session. Every call is made of a few pieces: the store is read or
written, the first schema is kept, the pool or the settings change. A relation between sessions that
allows each piece, and is reflexive and transitive, holds across every call.
-/

namespace EntityClient.Session

open EntityClient.Action

variable {σ : Type}

/-- The relation allows what reading calls are made of. -/
structure Reading (t : Transport σ) (R : Session σ → Session σ → Prop) : Prop where
  read : ∀ s path query, R s { s with remote := (t.read path query s.remote).2 }
  schema : ∀ s schema, s.schema = none → R s { s with schema := some schema }
  pool : ∀ s pool, R s { s with pool }

/-- The relation allows what all calls are made of. -/
structure Calling (t : Transport σ) (R : Session σ → Session σ → Prop) : Prop
    extends Reading t R where
  write : ∀ s w, R s { s with remote := (t.write w s.remote).2 }
  settings : ∀ s settings, R s { s with settings }

variable {t : Transport σ} {R : Session σ → Session σ → Prop} [Std.Refl R]
  [IsTrans (Session σ) R]

namespace Reading

variable (reading : Reading t R) (s : Session σ)
include reading

theorem loadSchema : R s (exec (Session.loadSchema t) s).2 := by
  rw [Session.loadSchema, exec_bind_of_ok (exec_get s)]
  cases absent : s.schema with
  | some schema => exact refl s
  | none =>
      simp only [exec_bind, exec_read]
      cases (t.read "/definition" [("format", "full")] s.remote).1 with
      | error e => exact reading.read s _ _
      | ok raw =>
          simp only [exec_liftM]
          cases Schema.ofJson raw with
          | error e => exact reading.read s _ _
          | ok schema =>
              exact IsTrans.trans _ _ _ (reading.read s _ _) (reading.schema _ schema absent)

theorem ensureSchema : R s (exec (Session.ensureSchema t) s).2 := by
  rw [Session.ensureSchema, exec_bind_of_ok (exec_get s)]
  split
  · exact exec_bind_session (reading.loadSchema s) fun _ s₁ _ => refl s₁
  · exact refl s

theorem find (i : Identity) : R s (exec (Session.find t i) s).2 := by
  rw [Session.find, exec_bind_of_ok (exec_get s)]
  cases s.pool.lookup i with
  | some h => exact refl s
  | none =>
      refine exec_bind_session (reading.read s _ _) fun raw s₁ _ => ?_
      refine exec_bind_session (reading.ensureSchema s₁) fun _ s₂ _ => ?_
      refine exec_bind_session ?_ fun e s₃ _ => reading.pool s₃ _
      rw [exec_readEntity_eq]
      exact refl s₂

theorem resolve (l : IdList) : R s (exec (Session.resolve t l) s).2 :=
  exec_mapM_session (fun id s => reading.find s ⟨l.type, id⟩) l.ids s

omit reading in
theorem listObject (type path : String) (object : Json)
    (pool : ∀ s pool, R s { s with pool }) : R s (exec (listObject type path object) s).2 := by
  refine exec_bind_session (refl s) fun id s₁ _ => ?_
  refine exec_bind_session ?_ fun e s₂ _ => ?_
  · rw [exec_readEntity_eq]
    exact refl s₁
  · exact exec_bind_session (refl s₂) fun _ s₃ _ =>
      exec_bind_session (pool s₃ _) fun _ s₄ _ => refl s₄

/-- What a listing does after it has asked for the entities. -/
theorem list_rendered {type orderText filter : String} {query : Option Filter.Query}
    {order : List (String × String)} (full : Bool)
    (ordered : SortOrder.render order = .ok orderText)
    (filtered : renderFilter query = .ok filter) :
    R { s with
        remote := (t.read ("/" ++ type) (listParameters filter orderText full) s.remote).2 }
      (exec (Session.list t type query order full) s).2 := by
  rw [Session.list, ordered, filtered]
  rw [exec_bind_of_ok (exec_liftM (.ok orderText) s), exec_bind_of_ok (exec_liftM (.ok filter) s)]
  simp only [exec_bind, exec_read]
  cases (t.read ("/" ++ type) (listParameters filter orderText full) s.remote).1 with
  | error x => exact refl _
  | ok answer =>
      simp only
      split
      · refine exec_bind_session (refl _) fun objects s₁ _ => ?_
        refine exec_bind_session (reading.ensureSchema s₁) fun _ s₂ _ => ?_
        refine exec_bind_session ?_ fun ids s₃ _ => refl s₃
        exact exec_mapM_session
          (fun object s => listObject s type ("/" ++ type) object reading.pool) objects s₂
      · exact exec_bind_session (refl _) fun ids s₁ _ => refl s₁

theorem list (type : String) (query : Option Filter.Query) (order : List (String × String))
    (full : Bool) : R s (exec (Session.list t type query order full) s).2 := by
  cases ordered : SortOrder.render order with
  | error x =>
      rw [Session.list, ordered]
      exact refl s
  | ok orderText =>
      cases filtered : renderFilter query with
      | error x =>
          rw [Session.list, ordered, filtered]
          exact refl s
      | ok filter =>
          exact IsTrans.trans _ _ _ (reading.read s _ _)
            (reading.list_rendered s full ordered filtered)

theorem currentRevision : R s (exec (Session.currentRevision t) s).2 :=
  exec_bind_session (reading.read s _ _) fun _ s₁ _ => refl s₁

theorem changesSince (since : UInt64) : R s (exec (Session.changesSince t since) s).2 :=
  exec_bind_session (reading.read s _ _) fun _ s₁ _ => refl s₁

/-- All calls but saving and deleting are made of these pieces. -/
theorem step {c : Call} (writeless : ∀ h, c ≠ .save h ∧ c ≠ .delete h)
    (settings : ∀ s settings, R s { s with settings }) : R s (Session.step t s c) := by
  cases c with
  | find i =>
      rw [Session.step, Call.action, exec_map]
      exact reading.find s i
  | list type query order full =>
      rw [Session.step, Call.action, exec_map]
      exact reading.list s type query order full
  | resolve l =>
      rw [Session.step, Call.action, exec_map]
      exact reading.resolve s l
  | loadSchema =>
      rw [Session.step, Call.action, exec_map]
      exact reading.loadSchema s
  | currentRevision =>
      rw [Session.step, Call.action, exec_map]
      exact reading.currentRevision s
  | changesSince since =>
      rw [Session.step, Call.action, exec_map]
      exact reading.changesSince s since
  | save h => exact absurd rfl (writeless h).1
  | delete h => exact absurd rfl (writeless h).2
  | adopt e | make e | edit h x | evictStale c | clearCache => exact reading.pool s _
  | configure new => exact settings s new

end Reading

namespace Calling

variable (calling : Calling t R) (s : Session σ)
include calling

theorem save (h : Handle) : R s (exec (Session.save t h) s).2 := by
  rw [Session.save, exec_bind_of_ok (exec_get s)]
  cases s.pool.get? h with
  | none => exact refl s
  | some e =>
      simp only
      split
      · exact refl s
      · cases e.id with
        | some id =>
            exact exec_bind_session (calling.write s _) fun _ s₁ _ => calling.pool s₁ _
        | none =>
            refine exec_bind_session (calling.write s _) fun body s₁ _ => ?_
            exact exec_bind_session (refl s₁) fun id s₂ _ => calling.pool s₂ _

theorem delete (h : Handle) : R s (exec (Session.delete t h) s).2 := by
  rw [Session.delete, exec_bind_of_ok (exec_get s)]
  cases s.pool.get? h with
  | none => exact refl s
  | some e =>
      simp only
      cases e.identity with
      | none => exact refl s
      | some i =>
          simp only
          split
          · exact refl s
          · exact exec_bind_session (calling.write s _) fun _ s₁ _ => calling.pool s₁ _

theorem step (c : Call) : R s (Session.step t s c) := by
  cases c with
  | save h =>
      rw [step_save]
      exact calling.save s h
  | delete h =>
      rw [step_delete]
      exact calling.delete s h
  | _ => exact calling.toReading.step s (by simp) calling.settings

theorem run (calls : List Call) : R s (Session.run t s calls) := by
  induction calls generalizing s with
  | nil => exact refl s
  | cons c rest ih => exact IsTrans.trans _ _ _ (calling.step s c) (ih (Session.step t s c))

end Calling
end EntityClient.Session
