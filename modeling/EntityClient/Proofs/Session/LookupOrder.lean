import EntityClient.Proofs.Session.SchemaLoading
import EntityClient.Remote.RouteTable
import Mathlib.Logic.Equiv.Basic

/-!
The order of lookups. Over a table of answers, what finding an identity comes to is settled before
any of the lookups: it depends on the table, the settings and the schema at the start only. A row of
lookups then enters the entities that can be had, each at its first occurrence, and another order
enters the same ones under other handles.
-/

namespace EntityClient

namespace Pool

/-- The second pool is the first one with its handles renamed. Handles that are still to come keep
their names. -/
structure Renamed (f : Equiv.Perm Handle) (p q : Pool) : Prop where
  length : q.instances.length = p.instances.length
  later : ∀ h, p.instances.length ≤ h → f h = h
  lookup : ∀ i, q.lookup i = (p.lookup i).map f
  get? : ∀ h, q.get? (f h) = p.get? h

/-- Every cached handle has an instance. -/
def Live (p : Pool) : Prop := ∀ i h, p.lookup i = some h → h < p.instances.length

theorem Coherent.live {p : Pool} (coherent : p.Coherent) : p.Live := by
  intro i h cached
  obtain ⟨e, live, -⟩ := coherent i h cached
  exact (List.getElem?_eq_some_iff.mp live).1

variable {p q r : Pool} {f g : Equiv.Perm Handle} {i j : Identity}

theorem Renamed.refl (p : Pool) : Renamed (Equiv.refl Handle) p p where
  length := rfl
  later _ _ := rfl
  lookup i := by cases p.lookup i <;> rfl
  get? _ := rfl

theorem Renamed.trans (first : Renamed f p q) (second : Renamed g q r) :
    Renamed (f.trans g) p r where
  length := second.length.trans first.length
  later h hh := by
    rw [Equiv.trans_apply, first.later h hh, second.later h (first.length ▸ hh)]
  lookup i := by
    rw [second.lookup, first.lookup, Option.map_map]
    rfl
  get? h := by rw [Equiv.trans_apply, second.get?, first.get?]

theorem Renamed.enter (renamed : Renamed f p q) (i : Identity) (e : Entity) :
    Renamed f (p.enter i e).2 (q.enter i e).2 where
  length := by rw [length_enter, length_enter, renamed.length]
  later h hh := by
    rw [length_enter] at hh
    exact renamed.later h (Nat.le_of_succ_le hh)
  lookup j := by
    rw [lookup_enter, lookup_enter, renamed.length]
    split
    · rw [Option.map_some, renamed.later _ (Nat.le_refl _)]
    · exact renamed.lookup j
  get? h := by
    have new : f h = p.instances.length ↔ h = p.instances.length := by
      rw [← renamed.later _ (Nat.le_refl p.instances.length), f.apply_eq_iff_eq,
        renamed.later _ (Nat.le_refl p.instances.length)]
    rw [get?_enter, get?_enter, renamed.length]
    simp only [new, renamed.get?]

theorem swap_apply_of_lt {n h : Handle} (hlt : h < n) : Equiv.swap n (n + 1) h = h :=
  Equiv.swap_apply_of_ne_of_ne (Nat.ne_of_lt hlt) (Nat.ne_of_lt (Nat.lt_succ_of_lt hlt))

/-- Two new entities entered in either order trade their handles. -/
theorem Renamed.swap (live : p.Live) (hij : i ≠ j) (a b : Entity) :
    Renamed (Equiv.swap p.instances.length (p.instances.length + 1))
      ((p.enter i a).2.enter j b).2 ((p.enter j b).2.enter i a).2 where
  length := by simp
  later h hh := by
    rw [length_enter, length_enter] at hh
    exact Equiv.swap_apply_of_ne_of_ne (Nat.ne_of_gt (Nat.lt_of_succ_lt hh)) (Nat.ne_of_gt hh)
  lookup k := by
    simp only [lookup_enter, length_enter]
    by_cases hi : k = i
    · subst hi
      simp [hij]
    · by_cases hj : k = j
      · subst hj
        simp [hi]
      · cases cached : p.lookup k with
        | none => simp [hi, hj]
        | some h => simp [hi, hj, swap_apply_of_lt (live k h cached)]
  get? h := by
    simp only [get?_enter, length_enter]
    by_cases h₀ : h = p.instances.length
    · subst h₀
      simp
    · by_cases h₁ : h = p.instances.length + 1
      · subst h₁
        simp
      · rw [Equiv.swap_apply_of_ne_of_ne h₀ h₁]
        simp [h₀, h₁]

/-! Gaining the entities that there are -/

/-- Enters the entity that there is for an identity, unless the identity is cached. -/
def gain (found : Identity → Except Failure Entity) (p : Pool) (i : Identity) : Pool :=
  match p.lookup i, found i with
  | none, .ok e => (p.enter i e).2
  | _, _ => p

def gainAll (found : Identity → Except Failure Entity) (p : Pool) (l : List Identity) : Pool :=
  l.foldl (gain found) p

variable {found : Identity → Except Failure Entity} {l l₁ l₂ : List Identity}

theorem gain_of_cached {h : Handle} (cached : p.lookup i = some h) : p.gain found i = p := by
  rw [gain, cached]

theorem gain_of_error {x : Failure} (failed : found i = .error x) : p.gain found i = p := by
  rw [gain, failed]
  cases p.lookup i <;> rfl

theorem gain_of_ok {e : Entity} (free : p.lookup i = none) (ok : found i = .ok e) :
    p.gain found i = (p.enter i e).2 := by
  rw [gain, free, ok]

/-- Either there is an entity to enter, or gaining it does nothing to any pool that caches the
identity just if `p` does. -/
theorem gain_cases (found : Identity → Except Failure Entity) (p : Pool) (i : Identity) :
    (∀ q : Pool, (q.lookup i).isSome = (p.lookup i).isSome → q.gain found i = q) ∨
      ∃ e, p.lookup i = none ∧ found i = .ok e := by
  cases ok : found i with
  | error x => exact .inl fun q _ => gain_of_error ok
  | ok e =>
      cases cached : p.lookup i with
      | none => exact .inr ⟨e, rfl, rfl⟩
      | some h =>
          refine .inl fun q hq => ?_
          obtain ⟨h', cached'⟩ := Option.isSome_iff_exists.mp hq
          exact gain_of_cached cached'

theorem lookup_gain_of_ne (hij : j ≠ i) : (p.gain found i).lookup j = p.lookup j := by
  obtain idle | ⟨e, free, ok⟩ := gain_cases found p i
  · rw [idle p rfl]
  · rw [gain_of_ok free ok, lookup_enter, if_neg hij]

theorem Renamed.gain (renamed : Renamed f p q) (i : Identity) :
    Renamed f (p.gain found i) (q.gain found i) := by
  have hq := renamed.lookup i
  obtain idle | ⟨e, free, ok⟩ := gain_cases found p i
  · rwa [idle p rfl, idle q (by rw [hq, Option.isSome_map])]
  · rw [free, Option.map_none] at hq
    rw [gain_of_ok free ok, gain_of_ok hq ok]
    exact renamed.enter i e

theorem Renamed.gainAll (renamed : Renamed f p q) (l : List Identity) :
    Renamed f (p.gainAll found l) (q.gainAll found l) := by
  induction l generalizing p q with
  | nil => exact renamed
  | cons i rest ih => exact ih (renamed.gain i)

theorem Live.gain (live : p.Live) (i : Identity) : (p.gain found i).Live := by
  obtain idle | ⟨e, free, ok⟩ := gain_cases found p i
  · rwa [idle p rfl]
  · rw [gain_of_ok free ok]
    intro j h cached
    rw [lookup_enter] at cached
    rw [length_enter]
    split at cached
    · cases cached
      exact Nat.lt_succ_self _
    · exact Nat.lt_succ_of_lt (live j h cached)

theorem length_le_gain (p : Pool) (i : Identity) :
    p.instances.length ≤ (p.gain found i).instances.length := by
  obtain idle | ⟨e, free, ok⟩ := gain_cases found p i
  · rw [idle p rfl]
  · rw [gain_of_ok free ok, length_enter]
    exact Nat.le_succ _

/-- Two gains in either order. -/
theorem gain_swap (found : Identity → Except Failure Entity) (live : p.Live) (i j : Identity) :
    ∃ f, (∀ h < p.instances.length, f h = h) ∧
      Renamed f ((p.gain found i).gain found j) ((p.gain found j).gain found i) := by
  by_cases hij : i = j
  · subst hij
    exact ⟨Equiv.refl Handle, fun _ _ => rfl, .refl _⟩
  have hi : (p.gain found j).lookup i = p.lookup i := lookup_gain_of_ne hij
  have hj : (p.gain found i).lookup j = p.lookup j := lookup_gain_of_ne (Ne.symm hij)
  obtain idle | ⟨a, free, ok⟩ := gain_cases found p i
  · rw [idle p rfl, idle (p.gain found j) (by rw [hi])]
    exact ⟨Equiv.refl Handle, fun _ _ => rfl, .refl _⟩
  obtain idle | ⟨b, free', ok'⟩ := gain_cases found p j
  · rw [idle p rfl, idle (p.gain found i) (by rw [hj])]
    exact ⟨Equiv.refl Handle, fun _ _ => rfl, .refl _⟩
  rw [gain_of_ok (hj.trans free') ok', gain_of_ok (hi.trans free) ok, gain_of_ok free ok,
    gain_of_ok free' ok']
  exact ⟨_, fun h hlt => swap_apply_of_lt hlt, Renamed.swap live hij a b⟩

/-- Gains in any two orders. The handles that were there keep their names. -/
theorem gainAll_perm (live : p.Live) (perm : l₁.Perm l₂) :
    ∃ f, (∀ h < p.instances.length, f h = h) ∧
      Renamed f (p.gainAll found l₁) (p.gainAll found l₂) := by
  induction perm generalizing p with
  | nil => exact ⟨Equiv.refl Handle, fun _ _ => rfl, .refl _⟩
  | cons i _ ih =>
      obtain ⟨f, fixed, renamed⟩ := ih (live.gain i)
      exact ⟨f, fun h hlt => fixed h (Nat.lt_of_lt_of_le hlt (length_le_gain p i)), renamed⟩
  | swap i j rest =>
      obtain ⟨f, fixed, renamed⟩ := gain_swap found live j i
      exact ⟨f, fixed, renamed.gainAll rest⟩
  | trans _ _ ih₁ ih₂ =>
      obtain ⟨f, fixed, first⟩ := ih₁ live
      obtain ⟨g, fixed', second⟩ := ih₂ live
      refine ⟨f.trans g, fun h hlt => ?_, first.trans second⟩
      rw [Equiv.trans_apply, fixed h hlt, fixed' h hlt]

/-- What is cached in the end was cached before, or there is an entity for it. -/
theorem lookup_gainAll_cases {h : Handle} (cached : (p.gainAll found l).lookup i = some h) :
    p.lookup i = some h ∨ ∃ e, found i = .ok e := by
  induction l generalizing p with
  | nil => exact .inl cached
  | cons j rest ih =>
      obtain earlier | entity := ih (p := p.gain found j) cached
      · by_cases hij : i = j
        · subst hij
          obtain idle | ⟨e, -, ok⟩ := gain_cases found p i
          · exact .inl (idle p rfl ▸ earlier)
          · exact .inr ⟨e, ok⟩
        · exact .inl (lookup_gain_of_ne hij ▸ earlier)
      · exact .inr entity

/-- What was cached stays cached as it was. -/
theorem lookup_gainAll_of_some {h : Handle} (cached : p.lookup i = some h) :
    (p.gainAll found l).lookup i = some h := by
  induction l generalizing p with
  | nil => exact cached
  | cons j rest ih =>
      refine ih (p := p.gain found j) ?_
      by_cases hij : i = j
      · rwa [← hij, gain_of_cached cached]
      · rwa [lookup_gain_of_ne hij]

end Pool

namespace Session

open EntityClient.Action

variable {s : Session RouteTable}

/-- The schema under which an object is read: one that is needed and not there is fetched. -/
def wanted (s : Session RouteTable) : Except Failure (Option Schema) :=
  if s.settings.typed ∧ s.schema.isNone then (fetched RouteTable.transport s.remote).map some
  else .ok s.schema

/-- The schema that there is once an object has been served. -/
def settled (s : Session RouteTable) : Option Schema :=
  match s.wanted with
  | .ok schema => schema
  | .error _ => s.schema

/-- What finding comes to where nothing is cached. -/
def verdict (s : Session RouteTable) (i : Identity) : Except Failure Entity := do
  let raw ← s.remote.answer .get i.path
  let schema ← s.wanted
  Entity.ofJson i.type i.id raw (schema.bind (·.get? i.type))

/-- Whether finding asks the table for an object and gets one. -/
def served (s : Session RouteTable) (i : Identity) : Bool :=
  (s.pool.lookup i).isNone && (s.remote.answer .get i.path).isOk

/-- The session after some lookups. -/
def finds (s : Session RouteTable) (l : List Identity) : Session RouteTable :=
  run RouteTable.transport s (l.map .find)

/-- Whether finding succeeds, or how it fails. -/
def outcome (s : Session RouteTable) (i : Identity) : Except Failure Unit :=
  (exec (find RouteTable.transport i) s).1.map fun _ => ()

/-- How each lookup of a row ends. -/
def outcomes (s : Session RouteTable) : List Identity → List (Identity × Except Failure Unit)
  | [] => []
  | i :: rest => (i, s.outcome i) :: outcomes (exec (find RouteTable.transport i) s).2 rest

theorem exec_ensureSchema_table (s : Session RouteTable) :
    exec (ensureSchema RouteTable.transport) s =
      (s.wanted.map fun _ => (), { s with schema := s.settled }) := by
  by_cases needed : s.settings.typed ∧ s.schema.isNone
  · have absent : s.schema = none := Option.isNone_iff_eq_none.mp needed.2
    rw [exec_ensureSchema_needed _ needed.1 absent, exec_loadSchema_absent _ absent, settled,
      wanted, if_pos needed]
    cases fetched RouteTable.transport s.remote with
    | error x =>
        simp only [Except.map, Except.toOption, absent]
        rfl
    | ok D => rfl
  · have idle : s.settings.typed = true → s.schema ≠ none := fun typed absent =>
      needed ⟨typed, Option.isNone_iff_eq_none.mpr absent⟩
    rw [exec_ensureSchema_idle _ idle, settled, wanted, if_neg needed]
    rfl

theorem exec_find_table {i : Identity} (uncached : s.pool.lookup i = none) :
    exec (find RouteTable.transport i) s =
      ((s.verdict i).map fun _ => s.pool.instances.length, { s with
        schema := if (s.remote.answer .get i.path).isOk then s.settled else s.schema
        pool := s.pool.gain s.verdict i }) := by
  have hread : exec (read RouteTable.transport i.path []) s =
      (s.remote.answer .get i.path, s) := rfl
  rw [find, exec_bind_of_ok (exec_get s), uncached]
  simp only
  rw [exec_bind, hread]
  cases answered : s.remote.answer .get i.path with
  | error x =>
      have failed : s.verdict i = .error x := by rw [verdict, answered]; rfl
      rw [failed, Pool.gain_of_error failed]
      rfl
  | ok raw =>
      have read : s.verdict i = s.wanted.bind fun schema =>
          Entity.ofJson i.type i.id raw (schema.bind (·.get? i.type)) := by
        rw [verdict, answered]
        rfl
      simp only
      rw [exec_bind, exec_ensureSchema_table]
      cases schema : s.wanted with
      | error x =>
          have failed : s.verdict i = .error x := by rw [read, schema]; rfl
          rw [failed, Pool.gain_of_error failed]
          rfl
      | ok D =>
          have known : s.settled = D := by rw [settled, schema]
          have read' : Entity.ofJson i.type i.id raw (D.bind (·.get? i.type)) = s.verdict i := by
            rw [read, schema]
            rfl
          simp only [Except.map]
          rw [exec_bind, exec_readEntity_eq, known, read']
          cases ok : s.verdict i with
          | error x =>
              rw [Pool.gain_of_error ok]
              rfl
          | ok e =>
              rw [Pool.gain_of_ok uncached ok]
              rfl

/-- What finding does to the session. -/
theorem find_session (s : Session RouteTable) (i : Identity) :
    (exec (find RouteTable.transport i) s).2 =
      { s with
        schema := if s.served i then s.settled else s.schema
        pool := s.pool.gain s.verdict i } := by
  cases cached : s.pool.lookup i with
  | none =>
      rw [exec_find_table cached, served, cached]
      rfl
  | some h =>
      rw [exec_find_cached _ cached, served, cached, Pool.gain_of_cached cached]
      rfl

theorem gain_unserved {i : Identity} (unserved : s.served i = false) :
    s.pool.gain s.verdict i = s.pool := by
  cases cached : s.pool.lookup i with
  | some h => exact Pool.gain_of_cached cached
  | none =>
      cases answered : s.remote.answer .get i.path with
      | error x => exact Pool.gain_of_error (x := x) (by rw [verdict, answered]; rfl)
      | ok raw =>
          rw [served, cached, answered] at unserved
          cases unserved

/-- Where nothing is served, finding does nothing. -/
theorem find_unserved {i : Identity} (unserved : s.served i = false) :
    (exec (find RouteTable.transport i) s).2 = s := by
  rw [find_session, unserved, gain_unserved unserved]
  rfl

/-- Settling the schema does not change which one is wanted. -/
theorem wanted_of_settled (s : Session RouteTable) (pool : Pool) :
    wanted { s with schema := s.settled, pool } = s.wanted := by
  by_cases needed : s.settings.typed ∧ s.schema.isNone
  · have absent : s.schema = none := Option.isNone_iff_eq_none.mp needed.2
    unfold settled wanted
    rw [if_pos needed]
    cases hD : fetched RouteTable.transport s.remote with
    | error x => simp [Except.map, needed.1, absent]
    | ok D => simp [Except.map]
  · have same : s.settled = s.schema := by rw [settled, wanted, if_neg needed]
    rw [same]
    rfl

theorem wanted_find (s : Session RouteTable) (i : Identity) :
    (exec (find RouteTable.transport i) s).2.wanted = s.wanted := by
  rw [find_session]
  split
  · exact wanted_of_settled s _
  · rfl

theorem verdict_find (s : Session RouteTable) (i : Identity) :
    (exec (find RouteTable.transport i) s).2.verdict = s.verdict := by
  have hremote : (exec (find RouteTable.transport i) s).2.remote = s.remote := by
    rw [find_session]
  funext j
  rw [verdict, verdict, wanted_find, hremote]

@[simp]
theorem finds_nil (s : Session RouteTable) : s.finds [] = s := rfl

theorem finds_cons (s : Session RouteTable) (i : Identity) (l : List Identity) :
    s.finds (i :: l) = (exec (find RouteTable.transport i) s).2.finds l := by
  rw [finds, List.map_cons, run, List.foldl_cons, step, Call.action, exec_map]
  rfl

/-- The session after some lookups, told by what the lookups come to at the start. -/
theorem finds_eq (s : Session RouteTable) (l : List Identity) :
    s.finds l = { s with
      schema := if l.any s.served then s.settled else s.schema
      pool := s.pool.gainAll s.verdict l } := by
  induction l generalizing s with
  | nil => rfl
  | cons i rest ih =>
      have gained : s.pool.gainAll s.verdict (i :: rest) =
          (s.pool.gain s.verdict i).gainAll s.verdict rest := rfl
      rw [finds_cons, List.any_cons, gained]
      cases answered : s.served i with
      | false => rw [find_unserved answered, ih, Bool.false_or, gain_unserved answered]
      | true =>
          have schema : (exec (find RouteTable.transport i) s).2.schema = s.settled := by
            rw [find_session, answered]
            rfl
          have settled' : (exec (find RouteTable.transport i) s).2.settled = s.settled := by
            rw [settled, wanted_find, schema]
            unfold settled
            cases s.wanted <;> rfl
          rw [ih, verdict_find, settled', schema, ite_self, find_session]
          rfl

theorem verdict_finds (s : Session RouteTable) (l : List Identity) :
    (s.finds l).verdict = s.verdict := by
  induction l generalizing s with
  | nil => rfl
  | cons i rest ih => rw [finds_cons, ih, verdict_find]

theorem outcome_eq (s : Session RouteTable) (i : Identity) :
    s.outcome i = if (s.pool.lookup i).isSome then .ok () else (s.verdict i).map fun _ => () := by
  cases cached : s.pool.lookup i with
  | some h =>
      rw [outcome, exec_find_cached _ cached]
      rfl
  | none =>
      rw [outcome, exec_find_table cached]
      cases s.verdict i <;> rfl

/-- Lookups do not change what finding comes to. -/
theorem outcome_finds (s : Session RouteTable) (l : List Identity) (i : Identity) :
    (s.finds l).outcome i = s.outcome i := by
  have pool : (s.finds l).pool = s.pool.gainAll s.verdict l := by rw [finds_eq]
  rw [outcome_eq, outcome_eq, verdict_finds, pool]
  cases before : s.pool.lookup i with
  | some h => rw [Pool.lookup_gainAll_of_some before]
  | none =>
      cases after : (s.pool.gainAll s.verdict l).lookup i with
      | none => rfl
      | some h =>
          obtain earlier | ⟨e, ok⟩ := Pool.lookup_gainAll_cases after
          · rw [before] at earlier
            cases earlier
          · rw [ok]
            rfl

/-- Each lookup of a row ends as it would at the start. -/
theorem outcomes_eq (s : Session RouteTable) (l : List Identity) :
    s.outcomes l = l.map fun i => (i, s.outcome i) := by
  induction l generalizing s with
  | nil => rfl
  | cons i rest ih =>
      have same (j : Identity) :
          (exec (find RouteTable.transport i) s).2.outcome j = s.outcome j := by
        rw [← finds_nil (exec (find RouteTable.transport i) s).2, ← finds_cons]
        exact outcome_finds s [i] j
      rw [outcomes, ih, List.map_cons]
      simp only [same]

/-- No state of a run caches a handle without an instance. -/
theorem run_live {σ : Type} (t : Transport σ) (remote : σ) (settings : Settings)
    (calls : List Call) : (run t (start remote settings) calls).pool.Live :=
  (run_coherent Pool.Coherent.empty calls).1.live

/-- The order of lookups does not matter. The lookups of an identity end alike in both orders, and
in the end both caches hold the same identities, the entities under them are the same up to the
names of the handles, and so is the schema. Nothing that was there before is renamed. -/
theorem finds_perm {s : Session RouteTable} (live : s.pool.Live) {l₁ l₂ : List Identity}
    (perm : l₁.Perm l₂) :
    (∀ i r r', (i, r) ∈ s.outcomes l₁ → (i, r') ∈ s.outcomes l₂ → r = r') ∧
    (∃ f, (∀ h < s.pool.instances.length, f h = h) ∧
      Pool.Renamed f (s.finds l₁).pool (s.finds l₂).pool) ∧
    (s.finds l₁).schema = (s.finds l₂).schema := by
  refine ⟨fun i r r' mem mem' => ?_, ?_, ?_⟩
  · rw [outcomes_eq] at mem mem'
    obtain ⟨j, -, first⟩ := List.mem_map.mp mem
    obtain ⟨k, -, second⟩ := List.mem_map.mp mem'
    cases first
    cases second
    rfl
  · have pool (l : List Identity) : (s.finds l).pool = s.pool.gainAll s.verdict l := by
      rw [finds_eq]
    rw [pool, pool]
    exact Pool.gainAll_perm live perm
  · simp only [finds_eq, perm.any_eq]

/-- Serves a group, two members and the schema, and refuses a third member. -/
def fewMembers : RouteTable :=
  ⟨[((.get, "/definition"), .ok (.obj [])), ((.get, "/group/7"), .ok (.obj [])),
    ((.get, "/member/1"), .ok (.obj [])),
    ((.get, "/member/2"), .ok (.obj [("readonly", .bool true)])),
    ((.get, "/member/3"), .error (.status (some 500) ""))]⟩

/-- The first two members trade their handles, the group keeps its own, and the third member is not
found in either order. -/
theorem finds_perm_members :
    let s := run RouteTable.transport (start fewMembers { typed := true }) [.find ⟨"group", 7⟩]
    let l := [⟨"member", 1⟩, ⟨"member", 3⟩, ⟨"member", 2⟩]
    (s.finds l).pool.lookup ⟨"member", 2⟩ = some 2 ∧
      (s.finds l.reverse).pool.lookup ⟨"member", 2⟩ = some 1 ∧
      (s.finds l).pool.lookup ⟨"member", 3⟩ = none ∧
      (∃ f, f 0 = 0 ∧ Pool.Renamed f (s.finds l).pool (s.finds l.reverse).pool) ∧
      (s.finds l).schema = (s.finds l.reverse).schema := by
  intro s l
  have live : s.pool.Live := run_live RouteTable.transport fewMembers { typed := true } _
  obtain ⟨-, ⟨f, fixed, renamed⟩, schema⟩ := finds_perm live (List.reverse_perm l).symm
  exact ⟨rfl, rfl, rfl, ⟨f, fixed 0 Nat.one_pos, renamed⟩, schema⟩

end Session
end EntityClient
