import EntityClient.Proofs.Session.IdentityMap
import EntityClient.Proofs.Session.Requests

/-!
Writes to readonly entities. Saving and deleting are refused on a readonly instance, and what is
refused is not sent. That looks at one instance only, so it protects an identity as long as the
cached instance is the only one that bears it. A few calls can bring about one that is not cached.
-/

namespace EntityClient

namespace Pool

open Entity

variable {p q : Pool} {i j : Identity} {h : Handle} {e : Entity} {f : Entity → Entity}

/-- No instance but the cached one bears the identity. -/
def Sole (i : Identity) (p : Pool) : Prop :=
  ∀ h e, p.get? h = some e → e.identity = some i → p.lookup i = some h

namespace Sole

theorem not_identity (hp : p.Sole i) (free : p.lookup i = none) (live : p.get? h = some e) :
    e.identity ≠ some i := by
  intro named
  rw [hp h e live named] at free
  cases free

/-- A changed instance may bear the identity if it did before, or is the cached one. -/
theorem update (hp : p.Sole i)
    (hf : ∀ e, p.get? h = some e → (f e).identity = some i →
      e.identity = some i ∨ p.lookup i = some h) : (p.update h f).Sole i := by
  intro g new live named
  rw [lookup_update]
  rw [get?_update] at live
  split at live
  next heq =>
    obtain ⟨old, hold, rfl⟩ := Option.map_eq_some_iff.mp live
    cases hf old hold named with
    | inl before => exact heq ▸ hp h old hold before
    | inr cached => exact heq ▸ cached
  next => exact hp g new live named

theorem create (hp : p.Sole i) (other : e.identity ≠ some i) : (p.create e).2.Sole i := by
  intro g new live named
  rw [lookup_create]
  rw [get?_create] at live
  split at live
  next =>
    cases live
    exact absurd named other
  next => exact hp g new live named

theorem enter (hp : p.Sole i) (fresh : p.lookup j = none) (named : e.identity = some j) :
    (p.enter j e).2.Sole i := by
  intro g new live bears
  have live' : (p.create e).2.get? g = some new := live
  rw [get?_create] at live'
  rw [lookup_enter]
  split at live'
  next heq =>
    cases live'
    rw [named] at bears
    rw [if_pos (Option.some.inj bears).symm, heq]
  next =>
    have cached := hp g new live' bears
    have hne : i ≠ j := by
      rintro rfl
      rw [fresh] at cached
      cases cached
    rw [if_neg hne, cached]

theorem refresh (hp : p.Sole i) (cached : p.lookup j = some h) (named : e.identity = some j) :
    (p.update h (·.takeOver e)).Sole i := by
  refine hp.update fun old _ bears => .inr ?_
  rw [identity_takeOver named old] at bears
  rw [← Option.some.inj bears, cached]

theorem takes {objects : List (Handle × Json)} (hp : p.Sole i) (taken : Takes p objects q) :
    q.Sole i := by
  induction taken with
  | nil => exact hp
  | cons first _ ih =>
      refine ih ?_
      cases first with
      | enter fresh read => exact hp.enter fresh (identity_ofJson read)
      | refresh cached read => exact hp.refresh cached (identity_ofJson read)

theorem adopt (hp : p.Sole i) (e : Entity) : (p.adopt e).2.Sole i := by
  unfold Pool.adopt
  split
  next unnamed =>
    refine hp.create ?_
    rw [unnamed]
    nofun
  next j named =>
    split
    next h cached => exact hp.refresh cached named
    next fresh => exact hp.enter fresh named

/-- The instance that is settled may be new under the identity. -/
theorem settle (live : p.get? h = some e) (named : e.identity = some j)
    (hp : ∀ g old, p.get? g = some old → old.identity = some i →
      p.lookup i = some g ∨ g = h ∧ j = i ∧ p.lookup i = none) : (p.settle j h).Sole i := by
  cases hj : p.lookup j with
  | none =>
      rw [settle_of_none hj]
      intro g old live' bears
      rw [lookup_cache]
      obtain cached | ⟨rfl, rfl, -⟩ := hp g old live' bears
      · have hne : i ≠ j := by
          rintro rfl
          rw [hj] at cached
          cases cached
        rw [if_neg hne, cached]
      · exact if_pos rfl
  | some g =>
      have sole : p.Sole i := by
        intro g' old live' bears
        obtain cached | ⟨-, rfl, free⟩ := hp g' old live' bears
        · exact cached
        · rw [hj] at free
          cases free
      by_cases hg : g = h
      · rwa [settle_of_eq (hg ▸ hj)]
      · rw [settle_of_ne hj live hg]
        exact sole.refresh hj named

/-- A deleted instance and the one that was cached under its identity bear none any more. -/
theorem forget (hp : p.Sole i) (j : Identity) (h : Handle) : (p.forget j h).Sole i := by
  have nameless (e : Entity) : (dropId e).identity ≠ some i := nofun
  unfold Pool.forget
  cases hj : p.lookup j with
  | none => exact hp.update fun e _ bears => absurd bears (nameless e)
  | some g =>
      intro g' new live bears
      simp only [get?_update, get?_uncache] at live
      split at live
      next =>
        obtain ⟨old, -, rfl⟩ := Option.map_eq_some_iff.mp live
        exact absurd bears (nameless old)
      next =>
        split at live
        next =>
          obtain ⟨old, -, rfl⟩ := Option.map_eq_some_iff.mp live
          exact absurd bears (nameless old)
        next hne =>
          have cached := hp g' new live bears
          have other : i ≠ j := by
            rintro rfl
            rw [hj] at cached
            exact hne (Option.some.inj cached).symm
          simp only [lookup_update, lookup_uncache, if_neg other, cached]

theorem evict (hp : p.Sole i) {l : List Identity} (kept : i ∈ l → p.lookup i = none) :
    (p.evict l).2.Sole i := by
  intro h e live bears
  rw [get?_evict] at live
  have cached := hp h e live bears
  rw [lookup_evict, if_neg, cached]
  intro listed
  rw [kept listed] at cached
  cases cached

theorem clear (hp : p.Sole i) (free : p.lookup i = none) : p.clear.Sole i :=
  fun _ _ live bears => absurd bears (hp.not_identity free live)

end Sole

end Pool

open Session EntityClient.Action Pool

variable {σ : Type}

/-- The calls that can leave an instance with the identity that is not the cached one: making one,
whether or not one is cached, dropping the cached one from the cache with its id, and saving one
without an id if the store's answer names that of the cached one. -/
def Call.Divides (t : Transport σ) (s : Session σ) (i : Identity) : Call → Prop
  | .make e => e.identity = some i
  | .clearCache => s.pool.lookup i ≠ none
  | .evictStale c => i ∈ c.stale ∧ s.pool.lookup i ≠ none
  | .save h =>
      s.pool.lookup i ≠ none ∧ (∃ e, s.pool.get? h = some e ∧ e.id = none) ∧
        ∃ e, (exec (Session.save t h) s).2.pool.get? h = some e ∧ e.identity = some i
  | _ => False

namespace Session

variable {t : Transport σ} {s : Session σ} {i : Identity} {h : Handle} {c : Call}

/-- No call of the row divides the identity, in the state in which the call is made. -/
def Undivided (t : Transport σ) (i : Identity) (s : Session σ) : List Call → Prop
  | [] => True
  | c :: rest => ¬ c.Divides t s i ∧ Undivided t i (step t s c) rest

theorem save_sole (hs : s.pool.Sole i) (whole : ¬ (Call.save h).Divides t s i) :
    (exec (save t h) s).2.pool.Sole i := by
  obtain ⟨-, hpool⟩ | ⟨e, id, -, live, named, hpool⟩ := save_pool t s h
  · rwa [hpool]
  · have live' : (s.pool.update h fun e => { e with id := some id }).get? h =
        some { e with id := some id } := get?_update_self _ live
    have after : (exec (save t h) s).2.pool.get? h = some { e with id := some id } := by
      rw [hpool]
      exact get?_settle_self live'
    rw [hpool]
    refine Sole.settle live' rfl fun g old hold bears => ?_
    rw [get?_update] at hold
    split at hold
    next heq =>
      rw [live] at hold
      cases hold
      subst heq
      cases named with
      | inr same =>
          -- the instance has borne the identity before
          refine .inl (hs g e live ?_)
          rw [Entity.identity, same]
          exact bears
      | inl unnamed =>
          refine .inr ⟨rfl, Option.some.inj bears, ?_⟩
          refine Classical.byContradiction fun cached => ?_
          exact whole ⟨cached, ⟨e, live, unnamed⟩, _, after, bears⟩
    next => exact .inl (hs g old hold bears)

theorem step_sole (hs : s.pool.Sole i) (whole : ¬ c.Divides t s i) :
    (step t s c).pool.Sole i := by
  cases c with
  | find | list | resolve | loadSchema | currentRevision | changesSince | configure =>
      refine hs.takes (step_takes t s ?_)
      trivial
  | save h =>
      rw [step_save]
      exact save_sole hs whole
  | delete h =>
      rw [step_delete]
      obtain hpool | ⟨e, j, -, live, named, hpool⟩ := delete_pool t s h
      · rwa [hpool]
      · rw [hpool]
        exact hs.forget j h
  | adopt e => exact hs.adopt e
  | make e => exact hs.create whole
  | edit h x => exact hs.update fun e _ bears => .inl (x.identity_apply e ▸ bears)
  | evictStale c =>
      exact hs.evict fun listed =>
        Classical.byContradiction fun cached => whole ⟨listed, cached⟩
  | clearCache => exact hs.clear (Classical.byContradiction whole)

theorem run_sole {calls : List Call} (hs : s.pool.Sole i) (whole : Undivided t i s calls) :
    (run t s calls).pool.Sole i := by
  induction calls generalizing s with
  | nil => exact hs
  | cons c rest ih => exact ih (step_sole hs whole.1) whole.2

/-- In every run, over every transport: whatever updates or deletes an entity is sent by a save or a
deletion of an instance with its identity that is not readonly at that moment. That instance is the
cached one, unless a call before has divided the identity. -/
theorem run_writes_writable (t : Transport σ) (remote : σ) (settings : Settings)
    (calls : List Call) (c : Call) (i : Identity) :
    let s := run t.recorded (start (remote, []) settings) calls
    ∃ sent, (step t.recorded s c).remote.2 = s.remote.2 ++ sent ∧
      ∀ w, Request.write w ∈ sent → w.Targets i →
        ∃ h e, (c = .save h ∨ c = .delete h) ∧ s.pool.get? h = some e ∧ e.identity = some i ∧
          e.readonly = false ∧
          (Undivided t.recorded i (start (remote, []) settings) calls →
            s.pool.lookup i = some h) := by
  intro s
  have sole (whole : Undivided t.recorded i (start (remote, []) settings) calls) : s.pool.Sole i :=
    run_sole (fun _ _ live => by cases live) whole
  obtain ⟨sent, hlog, told⟩ := step_requests t s c
  refine ⟨sent, hlog, fun w mem targets => ?_⟩
  cases told w mem with
  | @saved h e live writable =>
      have named := Entity.identity_of_targets targets
      exact ⟨h, e, .inl rfl, live, named, writable, fun whole => sole whole h e live named⟩
  | @deleted h e j live named writable =>
      cases Identity.path_injective targets
      exact ⟨h, e, .inr rfl, live, named, writable, fun whole => sole whole h e live named⟩

/-- A found member is saved: the update goes out through the cached instance. -/
theorem run_writes_writable_found :
    let t := (serving (.obj [])).recorded
    let calls := [.find ⟨"member", 1⟩]
    let s := run t (start ((), []) {}) calls
    ∃ w : Write, (step t s (.save 0)).remote.2 = s.remote.2 ++ [.write w] ∧
      w.Targets ⟨"member", 1⟩ ∧ Undivided t ⟨"member", 1⟩ (start ((), []) {}) calls ∧
      s.pool.lookup ⟨"member", 1⟩ = some 0 := by
  intro t calls s
  let found : Entity := { id := some 1, kind := .member }
  have hlog : (step t s (.save 0)).remote.2 = s.remote.2 ++ [.write found.saving] := rfl
  have targets : found.saving.Targets ⟨"member", 1⟩ := rfl
  have whole : Undivided t ⟨"member", 1⟩ (start ((), []) {}) calls := ⟨id, trivial⟩
  obtain ⟨sent, hlog', told⟩ :=
    run_writes_writable (serving (.obj [])) () {} calls (.save 0) ⟨"member", 1⟩
  have hsent : sent = [.write found.saving] := List.append_cancel_left (hlog'.symm.trans hlog)
  obtain ⟨h, -, saved | deleted, -, -, -, cached⟩ :=
    told found.saving (hsent ▸ List.mem_singleton_self _) targets
  · cases saved
    exact ⟨found.saving, hlog, targets, whole, cached whole⟩
  · cases deleted

/-- The cached member is readonly, and a second instance of it is saved. -/
theorem run_writes_readonly :
    let t := (serving (.obj [("readonly", .bool true)])).recorded
    let twin : Entity := { id := some 1, kind := .member }
    let s := run t (start ((), []) {}) [.find ⟨"member", 1⟩, .make twin]
    s.pool.lookup ⟨"member", 1⟩ = some 0 ∧ (s.pool.get? 0).map Entity.readonly = some true ∧
      twin.saving.Targets ⟨"member", 1⟩ ∧
      (step t s (.save 1)).remote.2 = s.remote.2 ++ [.write twin.saving] :=
  ⟨rfl, rfl, rfl, rfl⟩

end Session
end EntityClient
