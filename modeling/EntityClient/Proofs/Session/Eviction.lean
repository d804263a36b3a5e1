import EntityClient.Proofs.Session.Stability

/-!
Eviction. Dropping what a change set made stale takes exactly that out of the cache and touches
nothing else, however the types and ids are walked through. What is counted is identities, so one
that is listed twice counts once, and one that was not cached does not count.
-/

namespace EntityClient

namespace Pool

variable {p : Pool} {l l' : List Identity}

/-- What is counted and what is left make up the cache. -/
theorem evict_add_size (p : Pool) (l : List Identity) :
    (p.evict l).1 + (p.evict l).2.cached.size = p.cached.size := by
  induction l generalizing p with
  | nil => exact Nat.zero_add _
  | cons i rest ih =>
      simp only [evict]
      split
      next h cached =>
        have present : p.cached.contains i = true := Option.isSome_of_eq_some cached
        calc ((p.uncache i).evict rest).1 + 1 + ((p.uncache i).evict rest).2.cached.size
          _ = (p.uncache i).cached.size + 1 := by rw [← ih (p.uncache i)]; omega
          _ = p.cached.size := SortedMap.size_erase_of_contains present
      next => exact ih p

/-- The count is of the identities that were cached and no longer are. -/
theorem evict_count (p : Pool) (l : List Identity) :
    (p.evict l).1 =
      (p.cached.keys.filter fun i => ((p.evict l).2.lookup i).isNone).length := by
  have left : (p.evict l).2.cached.keys.Perm
      (p.cached.keys.filter fun i => !((p.evict l).2.lookup i).isNone) := by
    refine (List.perm_ext_iff_of_nodup (SortedMap.nodup_keys _)
      (p.cached.nodup_keys.filter _)).mpr fun i => ?_
    rw [List.mem_filter, SortedMap.mem_keys_iff, SortedMap.mem_keys_iff]
    change ((p.evict l).2.lookup i).isSome = true ↔ (p.lookup i).isSome = true ∧ _
    by_cases mem : i ∈ l <;> simp [mem]
  have parts := List.length_eq_length_filter_add (l := p.cached.keys)
    fun i => ((p.evict l).2.lookup i).isNone
  have total := evict_add_size p l
  rw [← SortedMap.length_keys, ← SortedMap.length_keys, left.length_eq, parts] at total
  exact Nat.add_right_cancel total

/-- Only which identities are dropped matters, not in which order or how often. -/
theorem evict_congr (same : ∀ i, i ∈ l ↔ i ∈ l') : p.evict l = p.evict l' := by
  have pool : (p.evict l).2 = (p.evict l').2 :=
    ext_lookup (by simp only [instances_evict]) fun i => by simp only [lookup_evict, same]
  refine Prod.ext ?_ pool
  rw [evict_count, evict_count, pool]

theorem evict_of_none (free : ∀ i ∈ l, p.lookup i = none) : p.evict l = (0, p) := by
  induction l with
  | nil => rfl
  | cons i rest ih =>
      rw [evict, free i List.mem_cons_self]
      exact ih fun j hj => free j (List.mem_cons_of_mem i hj)

theorem evict_again (p : Pool) (l : List Identity) :
    (p.evict l).2.evict l = (0, (p.evict l).2) :=
  evict_of_none fun i mem => by rw [lookup_evict, if_pos mem]

end Pool

/-- The change set lists the id as updated or deleted under the type. -/
def Delta.Stale (c : Delta) (i : Identity) : Prop :=
  ∃ t, c.get? i.type = some t ∧ (t.updated.contains i.id = true ∨ t.deleted.contains i.id = true)

theorem Delta.mem_stale {c : Delta} {i : Identity} : i ∈ c.stale ↔ c.Stale i := mem_stale_iff

namespace Session

open EntityClient.Action

variable {σ : Type}

/-- The stale identities have left the cache, and nothing else has changed. -/
structure Evicted (c : Delta) (s : Session σ) (n : Nat) (s' : Session σ) : Prop where
  frame : s' = { s with pool := { s.pool with cached := s'.pool.cached } }
  lookup_iff : ∀ i h, s'.pool.lookup i = some h ↔ s.pool.lookup i = some h ∧ ¬ c.Stale i
  count : n = (s.pool.cached.keys.filter fun i => (s'.pool.lookup i).isNone).length

theorem evicted_evict (c : Delta) (s : Session σ) :
    Evicted c s (s.pool.evict c.stale).1 { s with pool := (s.pool.evict c.stale).2 } where
  frame := by
    have pool : (s.pool.evict c.stale).2 =
        { s.pool with cached := (s.pool.evict c.stale).2.cached } :=
      Pool.ext_lookup (Pool.instances_evict _ _) fun _ => rfl
    exact congrArg (fun p => { s with pool := p }) pool
  lookup_iff i h := by
    rw [Pool.lookup_evict]
    by_cases mem : c.Stale i <;> simp [Delta.mem_stale, mem]
  count := Pool.evict_count s.pool c.stale

/-- An eviction drops from the cache what is stale, counts it, and does no more. Evicting again
finds nothing, and walking through the stale identities in another order comes to the same. -/
theorem evictStale_exact (c : Delta) (s : Session σ) :
    ∃ n s', exec (evictStale c) s = (.ok n, s') ∧ Evicted c s n s' ∧
      exec (evictStale c) s' = (.ok 0, s') ∧
      ∀ visited, (∀ i, i ∈ visited ↔ c.Stale i) →
        exec (withPool (·.evict visited)) s = (.ok n, s') := by
  refine ⟨_, _, exec_withPool _ s, evicted_evict c s, ?again, ?order⟩
  case again =>
    rw [evictStale, exec_withPool, Pool.evict_again]
  case order =>
    intro visited same
    rw [exec_withPool, Pool.evict_congr fun i => (same i).trans Delta.mem_stale.symm]

end Session
end EntityClient
