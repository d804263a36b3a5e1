import EntityClient.Proofs.Session.Run

/-!
Stability of live instances. Once an identity has been found, it is found again as the same
instance and without a request, until a call drops it from the cache: clearing, a deletion under
that identity, or an eviction that lists it. No other call replaces a cache entry.
-/

namespace EntityClient

/-- The identities that an eviction drops: those listed as updated or deleted. -/
theorem Delta.mem_stale_iff {c : Delta} {i : Identity} :
    i ∈ c.stale ↔ ∃ d, c.get? i.type = some d ∧
      (d.updated.contains i.id = true ∨ d.deleted.contains i.id = true) := by
  obtain ⟨type, id⟩ := i
  simp only [stale, List.mem_flatMap, Prod.exists, List.mem_map, List.mem_append,
    SortedMap.mem_keys_iff, Identity.mk.injEq, get?, SortedMap.get?_eq_some_iff]
  constructor
  · rintro ⟨type', d, mem, id', listed, rfl, rfl⟩
    exact ⟨d, mem, listed⟩
  · rintro ⟨d, mem, listed⟩
    exact ⟨type, d, mem, id, listed, rfl, rfl⟩

namespace Pool

variable {p q : Pool} {i : Identity} {h : Handle}

theorem lookup_move (m : Move p q) (cached : p.lookup i = some h) : q.lookup i = some h := by
  cases m with
  | @enter j e fresh named =>
      have hne : i ≠ j := by
        rintro rfl
        rw [fresh] at cached
        cases cached
      simpa [hne] using cached
  | refresh | create | edit => simpa using cached

theorem lookup_moves (m : Moves p q) (cached : p.lookup i = some h) : q.lookup i = some h := by
  induction m with
  | refl => exact cached
  | tail _ step ih => exact lookup_move step ih

end Pool

open Session EntityClient.Action

variable {σ : Type}

def Call.Drops (t : Transport σ) (s : Session σ) (i : Identity) : Call → Prop
  | .clearCache => True
  | .delete h =>
      (Call.delete h).Succeeds t s ∧ ∃ e, s.pool.get? h = some e ∧ e.identity = some i
  | .evictStale c => ∃ d, c.get? i.type = some d ∧
      (d.updated.contains i.id = true ∨ d.deleted.contains i.id = true)
  | _ => False

namespace Session

variable {t : Transport σ} {s : Session σ} {i : Identity} {h : Handle}

/-- No call of the row drops the identity, in the state in which the call is made. -/
def Undisturbed (t : Transport σ) (i : Identity) (s : Session σ) : List Call → Prop
  | [] => True
  | c :: rest => ¬ c.Drops t s i ∧ Undisturbed t i (step t s c) rest

theorem undisturbed_of_append {done calls : List Call} (hp : done <+: calls)
    (kept : Undisturbed t i s calls) : Undisturbed t i s done := by
  induction done generalizing s calls with
  | nil => trivial
  | cons c done ih =>
      obtain ⟨rest, rfl⟩ := hp
      exact ⟨kept.1, ih (List.prefix_append done rest) kept.2⟩

theorem step_lookup {c : Call} (kept : ¬ c.Drops t s i) (cached : s.pool.lookup i = some h) :
    (step t s c).pool.lookup i = some h := by
  generalize hp : (step t s c).pool = p
  have effect : Effect t s c p := hp ▸ step_effect t s c
  cases effect with
  | moved moves => exact Pool.lookup_moves moves cached
  | @saved g e id ok live named =>
      have hne : ¬ (i = ⟨e.type, id⟩ ∧ s.pool.lookup ⟨e.type, id⟩ = none) := by
        rintro ⟨rfl, free⟩
        rw [free] at cached
        cases cached
      simpa [Pool.lookup_settle, hne] using cached
  | @deleted g e j ok live named =>
      have hne : i ≠ j := by
        rintro rfl
        exact kept ⟨ok, e, live, named⟩
      simpa [hne] using cached
  | @evicted c =>
      have hout : i ∉ c.stale := fun mem => kept (Delta.mem_stale_iff.mp mem)
      simpa [hout] using cached
  | cleared => exact absurd trivial kept

theorem run_lookup {calls : List Call} (kept : Undisturbed t i s calls)
    (cached : s.pool.lookup i = some h) : (run t s calls).pool.lookup i = some h := by
  induction calls generalizing s with
  | nil => exact cached
  | cons c rest ih => exact ih kept.2 (step_lookup kept.1 cached)

theorem lookup_of_find {s₁ : Session σ} (found : exec (find t i) s = (.ok h, s₁)) :
    s₁.pool.lookup i = some h := by
  cases hi : s.pool.lookup i with
  | some h' =>
      rw [exec_find_cached t hi] at found
      cases found
      exact hi
  | none =>
      obtain ⟨raw, s', e, -, -, -, hfind⟩ | ⟨x, s', hfind, -⟩ := exec_find_served t hi
      · rw [hfind] at found
        cases found
        simp
      · rw [hfind] at found
        cases found

/-- A found instance is found again, whatever the calls between did unless they dropped it. The
session, its log of requests included, is left as it was, and no call on the way put another
instance in its place. -/
theorem find_again (t : Transport σ) {i : Identity} {h : Handle}
    {s s₁ : Session (σ × List Request)} (calls : List Call)
    (found : exec (find t.recorded i) s = (.ok h, s₁))
    (kept : Undisturbed t.recorded i s₁ calls) :
    exec (find t.recorded i) (run t.recorded s₁ calls) = (.ok h, run t.recorded s₁ calls) ∧
      ∀ done, done <+: calls → (run t.recorded s₁ done).pool.lookup i = some h := by
  have cached (done) (hp : done <+: calls) : (run t.recorded s₁ done).pool.lookup i = some h :=
    run_lookup (undisturbed_of_append hp kept) (lookup_of_find found)
  exact ⟨exec_find_cached _ (cached calls List.prefix_rfl), cached⟩

/-- Serves one member in its listing, empty objects elsewhere, and accepts every write. -/
def oneMember : Transport Unit where
  read path _ s :=
    (.ok (if path = "/member" then .arr [.obj [("id", .word 1)]] else .obj []), s)
  write _ s := (.ok "9", s)

/-- Calls that touch the member in every way but dropping it, and drop a document. -/
def traffic : List Call :=
  let twin : Entity := { id := some 1, kind := .member }
  [.list "member" none [] true, .make twin, .save 1, .adopt twin, .find ⟨"document", 2⟩, .delete 2,
    .evictStale ⟨0, none, .ofList [("document", ⟨.empty, IdSet.ofList [1], .empty⟩),
      ("member", ⟨IdSet.ofList [1], .empty, .empty⟩)]⟩]

theorem find_again_member :
    let s₁ := step oneMember.recorded (start ((), []) {}) (.find ⟨"member", 1⟩)
    exec (find oneMember.recorded ⟨"member", 1⟩) (start ((), []) {}) = (.ok 0, s₁) ∧
    Undisturbed oneMember.recorded ⟨"member", 1⟩ s₁ traffic ∧
    exec (find oneMember.recorded ⟨"member", 1⟩) (run oneMember.recorded s₁ traffic) =
      (.ok 0, run oneMember.recorded s₁ traffic) := by
  intro s₁
  have found : exec (find oneMember.recorded ⟨"member", 1⟩) (start ((), []) {}) = (.ok 0, s₁) := rfl
  have kept : Undisturbed oneMember.recorded ⟨"member", 1⟩ s₁ traffic := by
    refine ⟨id, id, id, id, id, ?_, ?_, trivial⟩
    · rintro ⟨-, e, live, named⟩
      cases live
      exact absurd named (by decide)
    · rintro ⟨d, hd, listed⟩
      cases hd
      exact absurd listed (by decide)
  exact ⟨found, kept, (find_again oneMember traffic found kept).1⟩

end Session
end EntityClient
