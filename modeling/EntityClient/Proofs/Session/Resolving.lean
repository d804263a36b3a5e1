import EntityClient.Proofs.Session.Requests
import EntityClient.Proofs.Session.SchemaLoading

/-!
Resolving a list. The lookups of a row come one after another, and the first that fails ends it. The
row asks once for each identity that is not cached at the start, where it first occurs, and for the
schema behind the first object if datatypes are wanted and none is there. What was cached stays so,
and no live instance changes.
-/

namespace EntityClient

/-- The identities at the positions of a list. -/
def IdList.identities (l : IdList) : List Identity := l.ids.map fun id => ⟨l.type, id⟩

namespace Pool

variable {p q r : Pool} {l m : List Identity} {i : Identity}

/-- The identities of a row that are not cached, each where it first occurs. -/
def missing (p : Pool) (l : List Identity) : List Identity :=
  (l.filter fun i => (p.lookup i).isNone).eraseDups

theorem missing_of_cached {h : Handle} (cached : p.lookup i = some h) : p.missing [i] = [] := by
  simp [missing, cached]

theorem missing_of_free (free : p.lookup i = none) : p.missing [i] = [i] := by
  simp [missing, free, List.eraseDups_cons]

theorem mem_missing_iff : i ∈ p.missing l ↔ i ∈ l ∧ p.lookup i = none := by
  simp [missing]

/-- Behind a row that has been cached, there is missing what was missing at the start and is not in
the row. -/
theorem missing_append (gained : ∀ j, q.lookup j = none ↔ p.lookup j = none ∧ j ∉ l) :
    p.missing (l ++ m) = p.missing l ++ q.missing m := by
  have later : (m.filter fun i => (p.lookup i).isNone).removeAll
      (l.filter fun i => (p.lookup i).isNone) = m.filter fun i => (q.lookup i).isNone := by
    rw [List.removeAll, List.filter_filter]
    refine List.filter_congr fun j _ => ?_
    rw [Bool.eq_iff_iff]
    simp only [Bool.and_eq_true, Bool.not_eq_true', List.elem_eq_mem, decide_eq_false_iff_not,
      List.mem_filter, Option.isNone_iff_eq_none, gained]
    tauto
  rw [missing, List.filter_append, List.eraseDups_append, later]
  rfl

/-- Identities of the row may have become cached, and instances may have come to be, but nothing
that was there has changed. -/
structure Grown (l : List Identity) (p q : Pool) : Prop where
  kept : ∀ i h, p.lookup i = some h → q.lookup i = some h
  others : ∀ i, i ∉ l → q.lookup i = p.lookup i
  spared : ∀ h e, p.get? h = some e → q.get? h = some e

theorem Grown.refl (l : List Identity) (p : Pool) : Grown l p p :=
  ⟨fun _ _ h => h, fun _ _ => rfl, fun _ _ h => h⟩

theorem Grown.append (first : Grown l p q) (second : Grown m q r) : Grown (l ++ m) p r where
  kept i h cached := second.kept i h (first.kept i h cached)
  others i mem := by
    rw [List.mem_append, not_or] at mem
    rw [second.others i mem.2, first.others i mem.1]
  spared h e live := second.spared h e (first.spared h e live)

theorem grown_enter (free : p.lookup i = none) (e : Entity) : Grown [i] p (p.enter i e).2 where
  kept j h cached := by
    have hne : j ≠ i := fun heq => by rw [heq, free] at cached; cases cached
    rw [lookup_enter, if_neg hne, cached]
  others j mem := by rw [lookup_enter, if_neg (by simpa using mem)]
  spared _ _ live := get?_create_of_some e live

end Pool

namespace Session

open EntityClient.Action Pool

variable {σ : Type}

/-- The schema has to be loaded before the next object is read. -/
def needsSchema (s : Session σ) : Bool := s.settings.typed && s.schema.isNone

/-- The requests for objects one after another. Behind the first one the schema is asked for if it
is needed. -/
def lookupRequests (needed : Bool) : List Identity → List Request
  | [] => []
  | i :: rest =>
      .read i.path [] ::
        ((if needed then [schemaRequest] else []) ++ rest.map fun j => .read j.path [])

theorem lookupRequests_false (l : List Identity) :
    lookupRequests false l = l.map fun i => .read i.path [] := by
  cases l <;> rfl

theorem lookupRequests_append (needed : Bool) (l m : List Identity) :
    lookupRequests needed (l ++ m) =
      lookupRequests needed l ++ lookupRequests (needed && l.isEmpty) m := by
  cases l with
  | nil => simp [lookupRequests]
  | cons i rest =>
      rw [List.isEmpty_cons, Bool.and_false, lookupRequests_false]
      simp [lookupRequests]

theorem mem_lookupRequests {needed : Bool} {l : List Identity} {i : Identity}
    (mem : .read i.path [] ∈ lookupRequests needed l) : i ∈ l := by
  cases l with
  | nil => cases mem
  | cons j rest =>
      rw [lookupRequests, List.mem_cons, List.mem_append, List.mem_map] at mem
      obtain first | schema | ⟨k, later, same⟩ := mem
      · cases Identity.path_injective (Request.read.inj first).1
        exact List.mem_cons_self
      · cases needed <;> simp [schemaRequest] at schema
      · cases Identity.path_injective (Request.read.inj same).1
        exact List.mem_cons_of_mem j later

/-! One lookup -/

section Find

variable (t : Transport σ) {s s' : Session (σ × List Request)} {i : Identity} {h : Handle}
  {x : Failure}

theorem ensureSchema_log (s : Session (σ × List Request)) :
    (exec (ensureSchema t.recorded) s).2.remote.2 =
      s.remote.2 ++ if s.needsSchema then [schemaRequest] else [] := by
  cases needed : s.needsSchema with
  | false =>
      have idle : s.settings.typed = true → s.schema ≠ none := by
        intro typed absent
        simp [needsSchema, typed, absent] at needed
      rw [exec_ensureSchema_idle _ idle]
      simp
  | true =>
      simp only [needsSchema, Bool.and_eq_true, Option.isNone_iff_eq_none] at needed
      rw [exec_ensureSchema_needed _ needed.1 needed.2]
      exact (quiet_loadSchema t needed.2).log

theorem needsSchema_of_ensured {t : Transport σ} {s s' : Session σ}
    (ensured : exec (ensureSchema t) s = (.ok (), s')) : s'.needsSchema = false := by
  cases typed : s.settings.typed with
  | false =>
      rw [exec_ensureSchema_idle t (by simp [typed])] at ensured
      cases ensured
      simp [needsSchema, typed]
  | true =>
      obtain ⟨D, loaded⟩ := schema_of_ensured typed ensured
      simp [needsSchema, loaded]

/-- Reading an object that has been served and entering it asks for nothing. -/
theorem enter_remote (raw : Json) (s : Session σ) :
    (exec (readEntity i raw >>= fun e => withPool (·.enter i e)) s).2.remote = s.remote := by
  obtain ⟨e, -, he⟩ | ⟨x, he⟩ := exec_readEntity i raw s
  · rw [exec_bind_of_ok he, exec_withPool]
  · rw [exec_bind_of_error he]

/-- What is not cached is asked for, and once it is served the schema is, if it is needed. -/
theorem find_log (free : s.pool.lookup i = none) :
    (exec (find t.recorded i) s).2.remote.2 = s.remote.2 ++ .read i.path [] ::
      if (t.read i.path [] s.remote.1).1.isOk && s.needsSchema then [schemaRequest] else [] := by
  rw [find, exec_bind_of_ok (exec_get s), free]
  simp only
  have asked := quiet_read t i.path [] s
  have needed : (exec (read t.recorded i.path []) s).2.needsSchema = s.needsSchema := rfl
  have answer : (exec (read t.recorded i.path []) s).1 = (t.read i.path [] s.remote.1).1 := rfl
  rw [← answer, ← needed]
  rcases hread : exec (read t.recorded i.path []) s with ⟨x | raw, s₁⟩
  · rw [hread] at asked
    rw [exec_bind_of_error hread, asked.log]
    simp [Except.isOk, Except.toBool]
  · rw [hread] at asked
    have loaded := ensureSchema_log t s₁
    rw [exec_bind_of_ok hread]
    have remote : (exec (ensureSchema t.recorded >>= fun _ =>
        readEntity i raw >>= fun e => withPool (·.enter i e)) s₁).2.remote =
        (exec (ensureSchema t.recorded) s₁).2.remote := by
      rcases hschema : exec (ensureSchema t.recorded) s₁ with ⟨x | _, s₂⟩
      · rw [exec_bind_of_error hschema]
      · rw [exec_bind_of_ok hschema, enter_remote]
    rw [remote, loaded, asked.log, List.append_assoc]
    simp [Except.isOk, Except.toBool]

/-- The row has been found, as these instances. -/
structure Found (l : List Identity) (handles : List Handle)
    (s s' : Session (σ × List Request)) : Prop where
  cached : l.map s'.pool.lookup = handles.map some
  grown : s.pool.Grown l s'.pool
  log : s'.remote.2 = s.remote.2 ++ lookupRequests s.needsSchema (s.pool.missing l)
  needsSchema : s'.needsSchema = (s.needsSchema && (s.pool.missing l).isEmpty)

theorem found_of_find (ok : exec (find t.recorded i) s = (.ok h, s')) : Found [i] [h] s s' := by
  cases cached : s.pool.lookup i with
  | some g =>
      rw [exec_find_cached _ cached] at ok
      cases ok
      have none := missing_of_cached cached
      refine ⟨by simp [cached], .refl _ _, ?_, ?_⟩
      · simp [none, lookupRequests]
      · simp [none]
  | none =>
      have log := find_log t cached
      rw [ok] at log
      obtain ⟨raw, s₁, e, served, ensured, -, found⟩ | ⟨x, s₁, failed, -⟩ :=
        exec_find_served t.recorded cached
      · rw [found] at ok
        cases ok
        have answer : (t.read i.path [] s.remote.1).1 = .ok raw := served
        have missing := missing_of_free cached
        refine ⟨by simp, grown_enter cached e, ?_, ?_⟩
        · rw [log, answer, missing]
          simp [lookupRequests, Except.isOk, Except.toBool]
        · rw [missing, List.isEmpty_cons, Bool.and_false]
          have idle : s₁.needsSchema = false := needsSchema_of_ensured ensured
          exact idle
      · rw [failed] at ok
        cases ok

/-- A lookup that fails has asked for the object, perhaps for the schema, and done nothing else. -/
theorem find_failed_requests (failed : exec (find t.recorded i) s = (.error x, s')) :
    s.pool.lookup i = none ∧ s'.pool = s.pool ∧ ∃ loading,
      (loading = [] ∨ s.needsSchema = true ∧ loading = [schemaRequest]) ∧
        s'.remote.2 = s.remote.2 ++ .read i.path [] :: loading := by
  have absent : s.pool.lookup i = none := by
    cases cached : s.pool.lookup i with
    | none => rfl
    | some h =>
        rw [exec_find_cached _ cached] at failed
        cases failed
  obtain ⟨quiet, -⟩ | ⟨quiet, typed, none⟩ := find_failed t failed
  · exact ⟨absent, quiet.pool, [], .inl rfl, quiet.log⟩
  · have needed : s.needsSchema = true := by simp [needsSchema, typed, none]
    exact ⟨absent, quiet.pool, [schemaRequest], .inr ⟨needed, rfl⟩, quiet.log⟩

end Find

/-! Rows of lookups -/

section Row

variable {t : Transport σ} {s s₁ s' : Session (σ × List Request)} {l m : List Identity}
  {handles more : List Handle}

theorem Found.lookup (found : Found l handles s s') {i : Identity} (mem : i ∈ l) :
    ∃ h, s'.pool.lookup i = some h := by
  have cached : s'.pool.lookup i ∈ handles.map some := found.cached ▸ List.mem_map_of_mem mem
  obtain ⟨h, -, hi⟩ := List.mem_map.mp cached
  exact ⟨h, hi.symm⟩

theorem Found.lookup_eq_none_iff (found : Found l handles s s') (i : Identity) :
    s'.pool.lookup i = none ↔ s.pool.lookup i = none ∧ i ∉ l := by
  constructor
  · intro free
    constructor
    · cases before : s.pool.lookup i with
      | none => rfl
      | some h =>
          rw [found.grown.kept i h before] at free
          cases free
    · intro mem
      obtain ⟨h, cached⟩ := found.lookup mem
      rw [free] at cached
      cases cached
  · rintro ⟨free, mem⟩
    rw [found.grown.others i mem, free]

theorem Found.append (first : Found l handles s s₁) (second : Found m more s₁ s') :
    Found (l ++ m) (handles ++ more) s s' := by
  have missing : s.pool.missing (l ++ m) = s.pool.missing l ++ s₁.pool.missing m :=
    missing_append first.lookup_eq_none_iff
  refine ⟨?_, first.grown.append second.grown, ?_, ?_⟩
  · have earlier : l.map s'.pool.lookup = l.map s₁.pool.lookup := by
      refine List.map_congr_left fun i mem => ?_
      obtain ⟨h, cached⟩ := first.lookup mem
      rw [cached, second.grown.kept i h cached]
    rw [List.map_append, List.map_append, earlier, first.cached, second.cached]
  · rw [missing, lookupRequests_append, ← first.needsSchema, second.log, first.log,
      List.append_assoc]
  · have both (k m : List Identity) : (k ++ m).isEmpty = (k.isEmpty && m.isEmpty) := by
      cases k <;> rfl
    rw [second.needsSchema, first.needsSchema, missing, both, Bool.and_assoc]

theorem found_of_row (ok : exec (l.mapM (find t.recorded)) s = (.ok handles, s')) :
    Found l handles s s' := by
  induction l generalizing s handles with
  | nil =>
      cases ok
      exact ⟨rfl, .refl _ _, (List.append_nil _).symm, (Bool.and_true _).symm⟩
  | cons i rest ih =>
      rw [List.mapM_cons] at ok
      obtain ⟨h, s₁, first, ok⟩ := exec_bind_succeeded ok
      obtain ⟨hs, s₂, later, ok⟩ := exec_bind_succeeded ok
      cases ok
      exact (found_of_find t first).append (ih later)

/-! Positions -/

section Positions

variable {i : Identity} {h : Handle} {j k : Nat}

theorem Found.getElem? (found : Found l handles s s') (k : Nat) :
    (handles[k]?).map some = (l[k]?).map s'.pool.lookup := by
  rw [← List.getElem?_map, ← List.getElem?_map, found.cached]

theorem Found.handle_congr (found : Found l handles s s') (same : l[j]? = l[k]?) :
    handles[j]? = handles[k]? := by
  have both : (handles[j]?).map some = (handles[k]?).map some := by
    rw [found.getElem?, found.getElem?, same]
  exact Option.map_injective (Option.some_injective _) both

theorem Found.handle_of_cached (found : Found l handles s s') (here : l[k]? = some i)
    (cached : s.pool.lookup i = some h) : handles[k]? = some h := by
  have old : (handles[k]?).map some = (some h).map some := by
    rw [found.getElem?, here, Option.map_some, found.grown.kept i h cached, Option.map_some]
  exact Option.map_injective (Option.some_injective _) old

end Positions

/-! Rows that fail -/

/-- The lookups of `done` have succeeded, and that of `i` has failed. -/
structure StoppedAt (t : Transport σ) (done : List Identity) (i : Identity) (x : Failure)
    (s s' : Session (σ × List Request)) : Prop where
  failed : ∃ handles s₁, exec (done.mapM (find t.recorded)) s = (.ok handles, s₁) ∧
    exec (find t.recorded i) s₁ = (.error x, s')
  cached : ∀ j ∈ done, ∃ h, s'.pool.lookup j = some h
  absent : s'.pool.lookup i = none
  grown : s.pool.Grown done s'.pool
  log : ∃ loading, (loading = [] ∨ s.needsSchema = true ∧ loading = [schemaRequest]) ∧
    s'.remote.2 = s.remote.2 ++ (lookupRequests s.needsSchema (s.pool.missing done) ++
      .read i.path [] :: loading)
  asked : ∀ sent, s'.remote.2 = s.remote.2 ++ sent →
    ∀ j, .read j.path [] ∈ sent → j = i ∨ j ∈ done ∧ s.pool.lookup j = none

theorem stoppedAt_of_failed {done : List Identity} {i : Identity} {x : Failure}
    (before : exec (done.mapM (find t.recorded)) s = (.ok handles, s₁))
    (failed : exec (find t.recorded i) s₁ = (.error x, s')) : StoppedAt t done i x s s' := by
  have found := found_of_row before
  obtain ⟨absent, pool, loading, hloading, log⟩ := find_failed_requests t failed
  have needed : s₁.needsSchema = true → s.needsSchema = true := by
    rw [found.needsSchema, Bool.and_eq_true]
    exact And.left
  have sent : s'.remote.2 = s.remote.2 ++
      (lookupRequests s.needsSchema (s.pool.missing done) ++ .read i.path [] :: loading) := by
    rw [log, found.log, List.append_assoc]
  refine ⟨⟨handles, s₁, before, failed⟩, ?_, pool ▸ absent, pool ▸ found.grown,
    ⟨loading, hloading.imp_right (And.imp_left needed), sent⟩, ?_⟩
  · intro j mem
    rw [pool]
    exact found.lookup mem
  · intro sent' hsent' j mem
    rw [List.append_cancel_left (hsent'.symm.trans sent), List.mem_append, List.mem_cons] at mem
    obtain earlier | same | later := mem
    · exact .inr (mem_missing_iff.mp (mem_lookupRequests earlier))
    · exact .inl (Identity.path_injective (Request.read.inj same).1)
    · obtain rfl | ⟨-, rfl⟩ := hloading
      · cases later
      · simp [schemaRequest] at later

theorem resolve_eq (t : Transport σ) (l : IdList) : resolve t l = l.identities.mapM (find t) := by
  rw [IdList.identities, List.mapM_map]
  rfl

/-- What resolving a list does, in every state of every run over any store, with whatever settings.
If it succeeds, each position gets the instance that is then cached under its identity, which is the
one that was if there was one. Else the failure is that of the first lookup that fails, and what is
behind it has not been asked for. -/
theorem resolve_outcome (t : Transport σ) (remote : σ) (settings : Settings) (calls : List Call)
    (l : IdList) :
    let s := run t.recorded (start (remote, []) settings) calls
    match exec (resolve t.recorded l) s with
    | (.ok handles, s') =>
        Found l.identities handles s s' ∧ s'.pool.Coherent ∧
        (∀ j k : Nat, l.ids[j]? = l.ids[k]? → handles[j]? = handles[k]?) ∧
        ∀ (k : Nat) id h, l.ids[k]? = some id → s.pool.lookup ⟨l.type, id⟩ = some h →
          handles[k]? = some h
    | (.error x, s') => ∃ done i rest, l.identities = done ++ i :: rest ∧
        StoppedAt t done i x s s' := by
  intro s
  have coherent : (step t.recorded s (.resolve l)).pool.Coherent :=
    (step_coherent (run_coherent Coherent.empty calls).1).1
  rw [step, Call.action, exec_map] at coherent
  rcases resolved : exec (resolve t.recorded l) s with ⟨x | handles, s'⟩
  · rw [resolve_eq] at resolved
    obtain ⟨done, i, rest, handles, s₁, row, before, failed⟩ := exec_mapM_failed resolved
    exact ⟨done, i, rest, row, stoppedAt_of_failed before failed⟩
  · rw [resolved] at coherent
    rw [resolve_eq] at resolved
    have found := found_of_row resolved
    refine ⟨found, coherent, fun j k same => found.handle_congr ?_, fun k id h here cached => ?_⟩
    · rw [IdList.identities, List.getElem?_map, List.getElem?_map, same]
    · refine found.handle_of_cached ?_ cached
      rw [IdList.identities, List.getElem?_map, here, Option.map_some]

/-- The first member is known, the second is listed twice. -/
example :
    let s := run (serving (.obj [])).recorded (start ((), []) { typed := true })
      [.adopt { id := some 1, kind := .member }]
    let r := exec (resolve (serving (.obj [])).recorded ⟨"member", [2, 1, 2, 3]⟩) s
    r.1 = .ok [1, 0, 1, 2] ∧
      r.2.remote.2 = [.read "/member/2" [], schemaRequest, .read "/member/3" []] := by
  decide +kernel

end Row

end Session
end EntityClient
