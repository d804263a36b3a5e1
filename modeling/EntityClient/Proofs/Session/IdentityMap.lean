import EntityClient.Proofs.Session.Run

/-!
The cache as an identity map: in every state that a run reaches, an instance bears the identity
that it is cached under. Types never change, and an id comes only with a successful save of its
own instance and goes only with a successful deletion under its identity.
-/

namespace EntityClient

namespace Entity

def Alike (e e' : Entity) : Prop := e'.type = e.type ∧ e'.id = e.id

theorem alike_refl (e : Entity) : e.Alike e := ⟨rfl, rfl⟩

theorem alike_trans (e₁ e₂ e₃ : Entity) (h : e₁.Alike e₂) (k : e₂.Alike e₃) : e₁.Alike e₃ :=
  ⟨k.1.trans h.1, k.2.trans h.2⟩

theorem Alike.identity_eq {e e' : Entity} (h : e.Alike e') : e'.identity = e.identity := by
  simp [identity, h.1, h.2]

theorem identity_eq_some_iff {e : Entity} {i : Identity} :
    e.identity = some i ↔ e.type = i.type ∧ e.id = some i.id := by
  obtain ⟨type, id⟩ := i
  cases hid : e.id with
  | none => simp [identity, hid]
  | some n => simp [identity, hid]

theorem alike_of_identity {e e' : Entity} {i : Identity} (he : e.identity = some i)
    (he' : e'.identity = some i) : e.Alike e' := by
  obtain ⟨ht, hid⟩ := identity_eq_some_iff.mp he
  obtain ⟨ht', hid'⟩ := identity_eq_some_iff.mp he'
  exact ⟨ht'.trans ht.symm, hid'.trans hid.symm⟩

/-- Of an entity with an identity everything is taken over. -/
theorem takeOver_of_identity {e other : Entity} {i : Identity}
    (named : other.identity = some i) : e.takeOver other = other := by
  obtain ⟨-, hid⟩ := identity_eq_some_iff.mp named
  have kept : (other.id <|> e.id) = other.id := by rw [hid]; rfl
  rw [takeOver, kept]

theorem identity_takeOver {other : Entity} {i : Identity} (named : other.identity = some i)
    (e : Entity) : (e.takeOver other).identity = some i := by
  rw [takeOver_of_identity named, named]

end Entity

namespace Pool

open Entity

variable {p q r : Pool} {R S T : Entity → Entity → Prop} {h : Handle} {i : Identity} {e : Entity}

/-- Every instance of the first pool lives on in the second, changed as `R` allows. -/
def Carries (R : Entity → Entity → Prop) (p q : Pool) : Prop :=
  ∀ h e, p.get? h = some e → ∃ e', q.get? h = some e' ∧ R e e'

theorem carries_of_get? (refl : ∀ e, R e e) (hget : ∀ h, q.get? h = p.get? h) : Carries R p q :=
  fun h e he => ⟨e, (hget h).trans he, refl e⟩

theorem Carries.trans (hpq : Carries R p q) (hqr : Carries S q r)
    (hT : ∀ e₁ e₂ e₃, R e₁ e₂ → S e₂ e₃ → T e₁ e₃) : Carries T p r := by
  intro h e he
  obtain ⟨e₂, he₂, hR⟩ := hpq h e he
  obtain ⟨e₃, he₃, hS⟩ := hqr h e₂ he₂
  exact ⟨e₃, he₃, hT e e₂ e₃ hR hS⟩

theorem carries_create (refl : ∀ e, R e e) (p : Pool) (new : Entity) :
    Carries R p (p.create new).2 :=
  fun _ e he => ⟨e, get?_create_of_some new he, refl e⟩

theorem carries_update (refl : ∀ e, R e e) {f : Entity → Entity}
    (hf : ∀ e, p.get? h = some e → R e (f e)) : Carries R p (p.update h f) := by
  intro g e he
  rw [get?_update]
  by_cases hg : g = h
  · subst hg
    exact ⟨f e, by simp [he], hf e he⟩
  · exact ⟨e, by simpa [hg] using he, refl e⟩

/-! One move -/

theorem Coherent.refresh (hp : p.Coherent) (cached : p.lookup i = some h)
    (named : e.identity = some i) : (p.update h (·.takeOver e)).Coherent :=
  hp.update fun j _ hj _ _ => by
    rw [hp.lookup_injective hj cached]
    exact identity_takeOver named _

theorem Coherent.carries_refresh (hp : p.Coherent) (cached : p.lookup i = some h)
    (named : e.identity = some i) : Carries Alike p (p.update h (·.takeOver e)) :=
  carries_update alike_refl fun old hold =>
    alike_of_identity (hp.identity cached hold) (identity_takeOver named old)

theorem Coherent.move (hp : p.Coherent) (m : Move p q) : q.Coherent ∧ Carries Alike p q := by
  cases m with
  | enter fresh named =>
      exact ⟨(hp.create _).cache (get?_create_self p _) named, carries_create alike_refl p _⟩
  | refresh cached named => exact ⟨hp.refresh cached named, hp.carries_refresh cached named⟩
  | create e => exact ⟨hp.create e, carries_create alike_refl p e⟩
  | edit h x =>
      exact ⟨hp.update fun _ _ _ _ hid => by simpa using hid,
        carries_update alike_refl fun e _ => ⟨x.type_apply e, x.id_apply e⟩⟩

theorem Coherent.moves (hp : p.Coherent) (m : Moves p q) :
    q.Coherent ∧ Carries Alike p q := by
  induction m with
  | refl => exact ⟨hp, carries_of_get? alike_refl fun _ => rfl⟩
  | tail _ step ih =>
      obtain ⟨hq, alike⟩ := ih
      obtain ⟨hr, alike'⟩ := hq.move step
      exact ⟨hr, alike.trans alike' alike_trans⟩

/-! Writes -/

/-- Settling an instance under its own identity is a refreshment, or caches it. -/
theorem Coherent.settle (hp : p.Coherent) (live : p.get? h = some e)
    (named : e.identity = some i) :
    (p.settle i h).Coherent ∧ Carries Alike p (p.settle i h) := by
  unfold Pool.settle
  cases hi : p.lookup i with
  | none => exact ⟨hp.cache live named, carries_of_get? alike_refl fun _ => rfl⟩
  | some h' =>
      simp only [live]
      split
      · exact ⟨hp, carries_of_get? alike_refl fun _ => rfl⟩
      · exact ⟨hp.refresh hi named, hp.carries_refresh hi named⟩

/-- An instance without an id is not cached, so it may get one. -/
theorem Coherent.assign (hp : p.Coherent) {id : UInt64} (live : p.get? h = some e)
    (named : e.id = none ∨ e.id = some id) :
    (p.update h fun e => { e with id := some id }).Coherent := by
  refine hp.update fun j old _ hold hid => ?_
  rw [live] at hold
  cases hold
  obtain ⟨ht, hj⟩ := identity_eq_some_iff.mp hid
  have hj' : some id = some j.id := by
    cases named with
    | inl unnamed =>
        rw [unnamed] at hj
        cases hj
    | inr same => exact same.symm.trans hj
  exact identity_eq_some_iff.mpr ⟨ht, hj'⟩

/-- Deleted under `i`: the id is gone, or type and id are what they were. -/
def Dropped (i : Identity) (e e' : Entity) : Prop :=
  e.Alike e' ∨ e.identity = some i ∧ e'.type = e.type ∧ e'.id = none

theorem dropped_trans (e₁ e₂ e₃ : Entity) (h : Dropped i e₁ e₂) (k : Dropped i e₂ e₃) :
    Dropped i e₁ e₃ := by
  cases h with
  | inl alike =>
      cases k with
      | inl alike' => exact .inl (alike_trans e₁ e₂ e₃ alike alike')
      | inr gone =>
          obtain ⟨named, ht, hid⟩ := gone
          exact .inr ⟨alike.identity_eq.symm.trans named, ht.trans alike.1, hid⟩
  | inr gone =>
      obtain ⟨named, ht, hid⟩ := gone
      refine .inr ⟨named, ?_⟩
      cases k with
      | inl alike => exact ⟨alike.1.trans ht, alike.2.trans hid⟩
      | inr gone' => exact ⟨gone'.2.1.trans ht, gone'.2.2⟩

/-- An instance may lose the identity `i` when nothing is cached under `i`. -/
theorem Coherent.drop (hp : p.Coherent) (free : p.lookup i = none)
    (hdrop : ∀ e, p.get? h = some e → e.identity = some i ∨ e.id = none) :
    (p.update h dropId).Coherent ∧ Carries (Dropped i) p (p.update h dropId) := by
  constructor
  · refine hp.update fun j e cached live hid => ?_
    cases hdrop e live with
    | inl named =>
        rw [hid] at named
        cases named
        rw [free] at cached
        cases cached
    | inr unnamed =>
        rw [Entity.identity, unnamed] at hid
        cases hid
  · refine carries_update (fun e => .inl (alike_refl e)) fun e live => ?_
    cases hdrop e live with
    | inl named => exact .inr ⟨named, rfl, rfl⟩
    | inr unnamed => exact .inl ⟨rfl, unnamed.symm⟩

theorem Coherent.forget (hp : p.Coherent) (live : p.get? h = some e)
    (named : e.identity = some i) :
    (p.forget i h).Coherent ∧ Carries (Dropped i) p (p.forget i h) := by
  unfold Pool.forget
  cases hi : p.lookup i with
  | none =>
      exact hp.drop hi fun e' he' => by
        rw [live] at he'
        cases he'
        exact .inl named
  | some h' =>
      have free : (p.uncache i).lookup i = none := by simp
      obtain ⟨hq, first⟩ := (hp.uncache i).drop free (h := h')
        fun e' he' => .inl (hp.identity hi he')
      obtain ⟨hr, second⟩ := hq.drop free (h := h) fun e' he' => by
        rw [get?_update] at he'
        split at he'
        next =>
          obtain ⟨old, -, rfl⟩ := Option.map_eq_some_iff.mp he'
          exact .inr rfl
        next =>
          rw [get?_uncache, live] at he'
          cases he'
          exact .inl named
      exact ⟨hr, fun g e' he' => (first.trans second dropped_trans) g e' he'⟩

end Pool

namespace Session

open EntityClient.Action Entity Pool

variable {σ : Type} {t : Transport σ} {s : Session σ} {c : Call}

/-- How a call may change the id of the instance `h`, which was `e`. -/
inductive IdChange (t : Transport σ) (s : Session σ) (c : Call) (h : Handle) (e : Entity) :
    Option UInt64 → Prop
  | kept : IdChange t s c h e e.id
  | given {id} (was : e.id = none) (save : c = .save h) (ok : c.Succeeds t s) :
      IdChange t s c h e (some id)
  | taken {i g gone} (was : e.identity = some i) (delete : c = .delete g) (ok : c.Succeeds t s)
      (live : s.pool.get? g = some gone) (named : gone.identity = some i) :
      IdChange t s c h e none

theorem IdChange.eq_of_some {h : Handle} {e : Entity} {a b : UInt64}
    (change : IdChange t s c h e (some b)) (was : e.id = some a) : a = b := by
  generalize hb : some b = id at change
  cases change with
  | kept => exact Option.some.inj (was.symm.trans hb.symm)
  | given unnamed => rw [unnamed] at was; cases was
  | taken => cases hb

/-- Every call keeps the pool coherent and every type, and changes ids only as told. -/
theorem step_coherent (hs : s.pool.Coherent) :
    (step t s c).pool.Coherent ∧ ∀ h e, s.pool.get? h = some e →
      ∃ e', (step t s c).pool.get? h = some e' ∧ e'.type = e.type ∧ IdChange t s c h e e'.id := by
  generalize hp : (step t s c).pool = p
  have effect : Effect t s c p := hp ▸ step_effect t s c
  have unchanged {p : Pool} (hc : p.Coherent) (alike : Carries Alike s.pool p) :
      p.Coherent ∧ ∀ h e, s.pool.get? h = some e →
        ∃ e', p.get? h = some e' ∧ e'.type = e.type ∧ IdChange t s c h e e'.id := by
    refine ⟨hc, fun h e he => ?_⟩
    obtain ⟨e', he', ht, hid⟩ := alike h e he
    exact ⟨e', he', ht, hid ▸ .kept⟩
  cases effect with
  | moved moves => exact unchanged (hs.moves moves).1 (hs.moves moves).2
  | evicted => exact unchanged (hs.evict _) (carries_of_get? alike_refl fun h => get?_evict _ h _)
  | cleared => exact unchanged hs.clear (carries_of_get? alike_refl fun _ => rfl)
  | @saved g e id ok live named =>
      have hq := hs.assign live named
      have live' : (s.pool.update g fun e => { e with id := some id }).get? g =
          some { e with id := some id } := get?_update_self _ live
      obtain ⟨hc, alike⟩ := hq.settle live' (i := ⟨e.type, id⟩) rfl
      refine ⟨hc, fun h old hold => ?_⟩
      by_cases hg : h = g
      · subst hg
        rw [live] at hold
        cases hold
        obtain ⟨e', he', ht, hid⟩ := alike h _ live'
        refine ⟨e', he', ht, hid ▸ ?_⟩
        cases named with
        | inl unnamed => exact .given unnamed rfl ok
        | inr same => exact same ▸ .kept
      · obtain ⟨e', he', ht, hid⟩ := alike h old (by simpa [get?_update, hg] using hold)
        exact ⟨e', he', ht, hid ▸ .kept⟩
  | @deleted g e i ok live named =>
      obtain ⟨hc, dropped⟩ := hs.forget live named
      refine ⟨hc, fun h old hold => ?_⟩
      obtain ⟨e', he', alike | ⟨was, ht, gone⟩⟩ := dropped h old hold
      · exact ⟨e', he', alike.1, alike.2 ▸ .kept⟩
      · exact ⟨e', he', ht, gone ▸ .taken was rfl ok live named⟩

theorem run_coherent (hs : s.pool.Coherent) (calls : List Call) :
    (run t s calls).pool.Coherent ∧
      Carries (fun e e' => e'.type = e.type) s.pool (run t s calls).pool := by
  induction calls generalizing s with
  | nil => exact ⟨hs, carries_of_get? (fun _ => rfl) fun _ => rfl⟩
  | cons c rest ih =>
      obtain ⟨hstep, types⟩ := step_coherent (t := t) (c := c) hs
      obtain ⟨hrun, later⟩ := ih hstep
      refine ⟨hrun, fun h e he => ?_⟩
      obtain ⟨e₁, he₁, ht₁, -⟩ := types h e he
      obtain ⟨e₂, he₂, ht₂⟩ := later h e₁ he₁
      exact ⟨e₂, he₂, ht₂.trans ht₁⟩

/-- The cache is an identity map in every state of every run, over every transport. No instance is
cached twice or changes its type, and no call turns one id into another. -/
theorem run_identityMap (t : Transport σ) (remote : σ) (settings : Settings)
    (calls : List Call) :
    let s := run t (start remote settings) calls
    (∀ i h, s.pool.lookup i = some h →
      ∃ e, s.pool.get? h = some e ∧ e.type = i.type ∧ e.id = some i.id) ∧
    (∀ i j h, s.pool.lookup i = some h → s.pool.lookup j = some h → i = j) ∧
    (∀ more h e, s.pool.get? h = some e →
      ∃ e', (run t s more).pool.get? h = some e' ∧ e'.type = e.type) ∧
    ∀ c h e, s.pool.get? h = some e →
      ∃ e', (step t s c).pool.get? h = some e' ∧ IdChange t s c h e e'.id ∧
        ∀ a b, e.id = some a → e'.id = some b → a = b := by
  intro s
  have hs : s.pool.Coherent := (run_coherent Coherent.empty calls).1
  refine ⟨fun i h cached => ?_, fun i j h => hs.lookup_injective, fun more => ?_,
    fun c h e he => ?_⟩
  · obtain ⟨e, he, named⟩ := hs i h cached
    exact ⟨e, he, identity_eq_some_iff.mp named⟩
  · exact (run_coherent hs more).2
  · obtain ⟨e', he', -, change⟩ := (step_coherent hs).2 h e he
    exact ⟨e', he', change, fun a b was is => (is ▸ change).eq_of_some was⟩

end Session
end EntityClient
