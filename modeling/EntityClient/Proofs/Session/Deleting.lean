import EntityClient.Proofs.Session.IdentityMap
import EntityClient.Proofs.Session.Resolving

/-!
Deleting that succeeds. One deletion has been sent, and the identity is not cached any more. The
instance that was deleted through and the one that was cached have lost their id, be they one
instance or two. Nothing else changes, so deleting once more is refused and finding asks the store.
-/

namespace EntityClient

theorem Pool.get?_forget (p : Pool) (i : Identity) (h g : Handle) :
    (p.forget i h).get? g =
      if g = h ∨ p.lookup i = some g then (p.get? g).map dropId else p.get? g := by
  have twice : dropId ∘ dropId = dropId := rfl
  unfold forget
  cases cached : p.lookup i with
  | none =>
      by_cases hg : g = h
      · simp [get?_update, hg]
      · simp [get?_update, hg]
  | some h' =>
      rw [get?_update, get?_update, get?_update, get?_uncache, get?_uncache, get?_uncache]
      by_cases hg : g = h
      · subst hg
        by_cases same : g = h'
        · subst same
          simp [twice]
        · simp [same]
      · by_cases same : g = h'
        · subst same
          simp [hg]
        · simp [hg, same, Ne.symm same]

namespace Session

open EntityClient.Action Pool

variable {σ : Type}

/-- What deleting through the instance `h`, which was `e` with the identity `i`, has done. -/
structure Deleted (t : Transport σ) (h : Handle) (e : Entity) (i : Identity)
    (s s' : Session (σ × List Request)) : Prop where
  log : s'.remote.2 = s.remote.2 ++ [.write (.delete i.path)]
  accepted : ∃ reply, (t.write (.delete i.path) s.remote.1).1 = .ok reply
  lookup : s'.pool.lookup i = none
  others : ∀ j, j ≠ i → s'.pool.lookup j = s.pool.lookup j
  unnamed : ∀ g, g = h ∨ s.pool.lookup i = some g → ∃ old, s.pool.get? g = some old ∧
    old.identity = some i ∧ s'.pool.get? g = some { old with id := none }
  spared : ∀ g, g ≠ h → s.pool.lookup i ≠ some g → s'.pool.get? g = s.pool.get? g
  again : exec (delete t.recorded h) s' = (.error (.withoutId e.type), s')
  asks : (exec (find t.recorded i) s').2.remote.2 = s'.remote.2 ++ .read i.path [] ::
    if (t.read i.path [] s'.remote.1).1.isOk && s'.needsSchema then [schemaRequest] else []

/-- The state that a deletion leaves that succeeds. -/
theorem delete_succeeded (t : Transport σ) {s s' : Session σ} {h : Handle} {e : Entity}
    (live : s.pool.get? h = some e) (ok : exec (delete t h) s = (.ok (), s')) :
    e.readonly = false ∧ ∃ i reply, e.identity = some i ∧
      (t.write (.delete i.path) s.remote).1 = .ok reply ∧ s'.pool = s.pool.forget i h := by
  cases named : e.identity with
  | none =>
      rw [exec_delete_withoutId t live named] at ok
      cases ok
  | some i =>
      cases writable : e.readonly with
      | true =>
          rw [exec_delete_readonly t live named writable] at ok
          cases ok
      | false =>
          rw [exec_delete t live named writable] at ok
          split at ok
          next reply remote written =>
            cases ok
            exact ⟨rfl, i, reply, rfl, congrArg Prod.fst written, rfl⟩
          next => cases ok

theorem deleted_of_coherent (t : Transport σ) {s s' : Session (σ × List Request)} {h : Handle}
    {e : Entity} (coherent : s.pool.Coherent) (live : s.pool.get? h = some e)
    (ok : exec (delete t.recorded h) s = (.ok (), s')) :
    ∃ i, e.identity = some i ∧ Deleted t h e i s s' := by
  obtain ⟨writable, i, reply, named, written, hpool⟩ := delete_succeeded t.recorded live ok
  have free : s'.pool.lookup i = none := by rw [hpool, lookup_forget, if_pos rfl]
  have unnamed (g : Handle) (old : Entity) (hg : g = h ∨ s.pool.lookup i = some g)
      (hold : s.pool.get? g = some old) : s'.pool.get? g = some { old with id := none } := by
    rw [hpool, get?_forget, if_pos hg, hold]
    rfl
  refine ⟨i, named, ?_, ⟨reply, written⟩, free, ?_, ?_, ?_, ?_, find_log t free⟩
  · have sent := delete_log t live named writable
    rwa [ok] at sent
  · intro j hj
    rw [hpool, lookup_forget, if_neg hj]
  · intro g hg
    cases hg with
    | inl same => exact ⟨e, same ▸ live, named, unnamed g e (.inl same) (same ▸ live)⟩
    | inr cached =>
        obtain ⟨old, hold, hid⟩ := coherent i g cached
        exact ⟨old, hold, hid, unnamed g old (.inr cached) hold⟩
  · intro g hg other
    rw [hpool, get?_forget, if_neg (not_or.mpr ⟨hg, other⟩)]
  · have left := unnamed h e (.inl rfl) live
    have refused := exec_delete_withoutId t.recorded left rfl
    exact refused

/-- A deletion that succeeds, through any instance in any state of any run over any store: one
deletion was sent, for the identity that the instance had, and the identity is gone from the cache,
from the instance and from the one that was cached under it. Nothing else has changed. -/
theorem deleted_of_delete (t : Transport σ) (remote : σ) (settings : Settings) (calls : List Call)
    {h : Handle} {e : Entity} {s' : Session (σ × List Request)}
    (live : (run t.recorded (start (remote, []) settings) calls).pool.get? h = some e)
    (ok : exec (delete t.recorded h) (run t.recorded (start (remote, []) settings) calls) =
      (.ok (), s')) :
    ∃ i, e.identity = some i ∧
      Deleted t h e i (run t.recorded (start (remote, []) settings) calls) s' :=
  deleted_of_coherent t (run_coherent Coherent.empty calls).1 live ok

/-- A member is deleted through a second instance, beside a document and another member. -/
theorem deleted_of_delete_twin :
    let twin : Entity := { id := some 1, kind := .member, parents := [3] }
    let calls : List Call :=
      [.find ⟨"member", 1⟩, .find ⟨"document", 1⟩, .find ⟨"member", 2⟩, .make twin]
    let s := run (serving (.obj [])).recorded (start ((), []) {}) calls
    let s' := (exec (delete (serving (.obj [])).recorded 3) s).2
    s.pool.get? 3 = some twin ∧
      exec (delete (serving (.obj [])).recorded 3) s = (.ok (), s') ∧
      Deleted (serving (.obj [])) 3 twin ⟨"member", 1⟩ s s' ∧
      s'.pool.get? 0 = some { kind := .member } ∧
      s'.pool.get? 3 = some { kind := .member, parents := [3] } ∧
      s'.pool.held ⟨"document", 1⟩ = s.pool.held ⟨"document", 1⟩ := by
  intro twin calls s s'
  have live : s.pool.get? 3 = some twin := by rfl
  have ok : exec (delete (serving (.obj [])).recorded 3) s = (.ok (), s') := by rfl
  obtain ⟨i, named, deleted⟩ := deleted_of_delete (serving (.obj [])) () {} calls live ok
  cases named
  refine ⟨live, ok, deleted, ?_, ?_, ?_⟩
  · decide +kernel
  · decide +kernel
  · decide +kernel

end Session
end EntityClient
