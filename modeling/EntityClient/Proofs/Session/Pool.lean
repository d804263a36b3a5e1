import EntityClient.Session.Pool

/-!
What the pool operations do to the cache and to the instances, each seen through `lookup` and
`get?`. A pool is coherent when every instance bears the identity that it is cached under; the
operations keep that as long as they change a cached instance's identity only after uncaching it.
-/

namespace EntityClient.Pool

section Views

variable (p : Pool) (i j : Identity) (h g : Handle) (e : Entity) (f : Entity → Entity)

@[simp]
theorem lookup_update : (p.update h f).lookup i = p.lookup i := rfl

@[simp]
theorem lookup_create : (p.create e).2.lookup i = p.lookup i := rfl

@[simp]
theorem lookup_cache : (p.cache i h).lookup j = if j = i then some h else p.lookup j :=
  SortedMap.get?_insert p.cached i h j

@[simp]
theorem lookup_uncache : (p.uncache i).lookup j = if j = i then none else p.lookup j :=
  SortedMap.get?_erase p.cached i j

@[simp]
theorem lookup_clear : p.clear.lookup i = none := rfl

@[simp]
theorem lookup_enter :
    (p.enter i e).2.lookup j = if j = i then some p.instances.length else p.lookup j :=
  lookup_cache _ i j _

@[simp]
theorem get?_uncache : (p.uncache i).get? g = p.get? g := rfl

theorem get?_update :
    (p.update h f).get? g = if g = h then (p.get? h).map f else p.get? g := by
  simp only [get?, update, List.getElem?_modify]
  by_cases hg : g = h
  · subst hg; simp
  · simp [hg, Ne.symm hg]

theorem get?_update_self {p : Pool} {h : Handle} {e : Entity} (f : Entity → Entity)
    (live : p.get? h = some e) : (p.update h f).get? h = some (f e) := by
  rw [get?_update, if_pos rfl, live, Option.map_some]

theorem get?_create :
    (p.create e).2.get? g = if g = p.instances.length then some e else p.get? g := by
  simp only [get?, create]
  obtain hlt | heq | hgt := Nat.lt_trichotomy g p.instances.length
  · rw [List.getElem?_append_left hlt, if_neg (Nat.ne_of_lt hlt)]
  · rw [heq, List.getElem?_concat_length, if_pos rfl]
  · rw [if_neg (Nat.ne_of_gt hgt), List.getElem?_eq_none (Nat.le_of_lt hgt),
      List.getElem?_eq_none (by simpa using Nat.succ_le_of_lt hgt)]

@[simp]
theorem length_enter : (p.enter i e).2.instances.length = p.instances.length + 1 := by
  simp [enter, create, cache]

theorem get?_enter :
    (p.enter i e).2.get? g = if g = p.instances.length then some e else p.get? g :=
  get?_create p g e

@[simp]
theorem get?_create_self : (p.create e).2.get? p.instances.length = some e := by
  rw [get?_create, if_pos rfl]

theorem get?_create_of_some {p : Pool} {h : Handle} {e : Entity} (new : Entity)
    (he : p.get? h = some e) : (p.create new).2.get? h = some e := by
  obtain ⟨hlt, -⟩ := List.getElem?_eq_some_iff.mp he
  rw [get?_create, if_neg (Nat.ne_of_lt hlt), he]

theorem update_eq_self {p : Pool} {h : Handle} {e : Entity} {f : Entity → Entity}
    (he : p.get? h = some e) (hf : f e = e) : p.update h f = p := by
  obtain ⟨instances, cached⟩ := p
  have hlist : instances.modify h f = instances := by
    apply List.ext_getElem?
    intro n
    rw [List.getElem?_modify]
    by_cases hn : h = n
    · subst hn
      change instances[h]? = some e at he
      simp [he, hf]
    · simp [hn]
  simp [update, hlist]

theorem lookup_settle :
    (p.settle i h).lookup j = if j = i ∧ p.lookup i = none then some h else p.lookup j := by
  unfold settle
  cases hi : p.lookup i with
  | none => by_cases hj : j = i <;> simp [hj]
  | some h' =>
      cases p.get? h with
      | none => simp
      | some e => by_cases hh : h' = h <;> simp [hh]

@[simp]
theorem lookup_forget : (p.forget i h).lookup j = if j = i then none else p.lookup j := by
  unfold forget
  cases hi : p.lookup i with
  | none =>
      by_cases hj : j = i
      · simp [hj, hi]
      · simp [hj]
  | some h' => simp

@[simp]
theorem lookup_evict (l : List Identity) :
    (p.evict l).2.lookup j = if j ∈ l then none else p.lookup j := by
  induction l generalizing p with
  | nil => simp [evict]
  | cons k rest ih =>
      cases hk : p.lookup k with
      | none =>
          by_cases hj : j = k
          · subst hj; simp [evict, hk, ih]
          · simp [evict, hk, ih, hj]
      | some h =>
          by_cases hj : j = k
          · subst hj; simp [evict, hk, ih]
          · simp [evict, hk, ih, hj]

@[simp]
theorem instances_evict (l : List Identity) : (p.evict l).2.instances = p.instances := by
  induction l generalizing p with
  | nil => rfl
  | cons k rest ih =>
      simp only [evict]
      split
      · exact ih (p.uncache k)
      · exact ih p

@[simp]
theorem get?_evict (l : List Identity) : (p.evict l).2.get? h = p.get? h := by
  rw [get?, instances_evict, get?]

end Views

/-- A pool is its instances and what it answers. -/
theorem ext_lookup {p q : Pool} (instances : p.instances = q.instances)
    (lookup : ∀ i, p.lookup i = q.lookup i) : p = q := by
  obtain ⟨_, _⟩ := p
  cases instances
  cases SortedMap.ext_get? lookup
  rfl

/-- The instance that is cached under an identity. -/
def held (p : Pool) (i : Identity) : Option Entity := (p.lookup i).bind p.get?

theorem held_of_lookup {p : Pool} {i : Identity} {h : Handle} (cached : p.lookup i = some h) :
    p.held i = p.get? h := by
  rw [held, cached, Option.bind_some]

section Settle

variable {p : Pool} {i : Identity} {h g : Handle} {e : Entity}

theorem settle_of_none (free : p.lookup i = none) (h : Handle) : p.settle i h = p.cache i h := by
  rw [settle, free]

theorem settle_of_eq (cached : p.lookup i = some h) : p.settle i h = p := by
  rw [settle, cached]
  cases p.get? h with
  | none => rfl
  | some e => exact if_pos rfl

theorem settle_of_ne (cached : p.lookup i = some g) (live : p.get? h = some e) (hne : g ≠ h) :
    p.settle i h = p.update g (·.takeOver e) := by
  rw [settle, cached, live]
  exact if_neg hne

theorem get?_settle_self (live : p.get? h = some e) : (p.settle i h).get? h = some e := by
  cases hi : p.lookup i with
  | none => rwa [settle_of_none hi]
  | some g =>
      by_cases hg : g = h
      · rwa [settle_of_eq (hg ▸ hi)]
      · rw [settle_of_ne hi live hg, get?_update, if_neg (Ne.symm hg), live]

end Settle

/-- Every cached instance bears the identity that it is cached under. -/
def Coherent (p : Pool) : Prop :=
  ∀ i h, p.lookup i = some h → ∃ e, p.get? h = some e ∧ e.identity = some i

namespace Coherent

variable {p : Pool} {i : Identity} {h : Handle} {e : Entity} {f : Entity → Entity}

theorem empty : Coherent {} := fun _ _ hi => by cases hi

theorem identity (hp : p.Coherent) (hi : p.lookup i = some h) (he : p.get? h = some e) :
    e.identity = some i := by
  obtain ⟨e', he', hid⟩ := hp i h hi
  rw [he] at he'
  cases he'
  exact hid

theorem lookup_injective (hp : p.Coherent) {j : Identity} (hi : p.lookup i = some h)
    (hj : p.lookup j = some h) : i = j := by
  obtain ⟨e, he, hid⟩ := hp i h hi
  have hid' := hp.identity hj he
  rw [hid] at hid'
  exact Option.some.inj hid'

/-- An instance may change if it keeps the identity that it is cached under. -/
theorem update (hp : p.Coherent)
    (hf : ∀ i e, p.lookup i = some h → p.get? h = some e → e.identity = some i →
      (f e).identity = some i) : (p.update h f).Coherent := by
  intro i g hi
  rw [lookup_update] at hi
  obtain ⟨e, he, hid⟩ := hp i g hi
  rw [get?_update]
  by_cases hg : g = h
  · subst hg
    exact ⟨f e, by simp [he], hf i e hi he hid⟩
  · exact ⟨e, by simpa [hg] using he, hid⟩

theorem create (hp : p.Coherent) (new : Entity) : (p.create new).2.Coherent := by
  intro i h hi
  obtain ⟨e, he, hid⟩ := hp i h hi
  exact ⟨e, get?_create_of_some new he, hid⟩

theorem cache (hp : p.Coherent) (he : p.get? h = some e) (hid : e.identity = some i) :
    (p.cache i h).Coherent := by
  intro j g hj
  rw [lookup_cache] at hj
  split at hj
  next heq =>
    cases hj
    exact ⟨e, he, heq ▸ hid⟩
  next => exact hp j g hj

theorem shrink {q : Pool} (hp : p.Coherent) (hget : ∀ h, q.get? h = p.get? h)
    (hlook : ∀ i h, q.lookup i = some h → p.lookup i = some h) : q.Coherent := by
  intro i h hi
  rw [hget]
  exact hp i h (hlook i h hi)

theorem uncache (hp : p.Coherent) (i : Identity) : (p.uncache i).Coherent :=
  hp.shrink (fun _ => rfl) fun j h hj => by
    rw [lookup_uncache] at hj
    split at hj
    · cases hj
    · exact hj

theorem clear (hp : p.Coherent) : p.clear.Coherent :=
  hp.shrink (fun _ => rfl) fun _ _ hi => by simp at hi

theorem evict (hp : p.Coherent) (l : List Identity) : (p.evict l).2.Coherent :=
  hp.shrink (fun h => get?_evict p h l) fun j h hj => by
    rw [lookup_evict] at hj
    split at hj
    · cases hj
    · exact hj

end Coherent
end EntityClient.Pool
