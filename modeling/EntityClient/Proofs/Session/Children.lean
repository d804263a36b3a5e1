import EntityClient.Proofs.Entity.RoundTrip
import EntityClient.Proofs.Session.IdentityMap

/-!
Where the children of an instance come from. An instance gets its children from an object of the
store, by hydration, or from another entity that is copied over it: one the caller made, or another
instance that was saved under its identity. Nothing else changes them, so they are always those of
the latest source.
-/

namespace EntityClient

/-- What an instance gets its children from. -/
inductive Source where
  | served (object : Json)
  | copied (e : Entity)

/-- The children that a source has. -/
def Source.Bears : Source → SortedMap String (List UInt64) → Prop
  | .served object, m =>
      ∃ children, readIdMap (object.get? "children") = .ok children ∧ m = .ofList children
  | .copied e, m => m = e.children

/-- The latest source of an instance. -/
def Source.latest (h : Handle) (told : List (Handle × Source)) : Option Source :=
  told.reverse.lookup h

namespace Source

variable {h g : Handle} {source : Source} {told more : List (Handle × Source)}

theorem latest_append : latest h (told ++ more) = (latest h more).or (latest h told) := by
  rw [latest, List.reverse_append, List.lookup_append]
  rfl

theorem latest_singleton :
    latest h [(g, source)] = if h = g then some source else none := by
  by_cases hg : h = g
  · simp [latest, hg]
  · have hne : (h == g) = false := beq_false_of_ne hg
    simp [latest, List.lookup_cons, hg, hne]

theorem served_bears {type : String} {id : UInt64} {raw : Json} {schema : Option TypeSchema}
    {e : Entity} (read : Entity.ofJson type id raw schema = .ok e) :
    (served raw).Bears e.children := by
  obtain ⟨members, rfl⟩ := Entity.exists_members_of_ofJson read
  obtain ⟨-, children, -, -, -, hchildren, -, -, rfl⟩ := Entity.ofJson_obj_eq_ok_iff.mp read
  exact ⟨children, hchildren, rfl⟩

end Source

namespace Pool

open Source

/-- The second pool follows from the first: an instance that has got no source has the children that
it had, and every other those of its latest source. -/
def Tells (p : Pool) (told : List (Handle × Source)) (q : Pool) : Prop :=
  ∀ h e, q.get? h = some e →
    match latest h told with
    | some source => source.Bears e.children
    | none => ∃ old, p.get? h = some old ∧ e.children = old.children

variable {p q r : Pool} {h : Handle} {e : Entity} {source : Source} {f : Entity → Entity}
  {told more : List (Handle × Source)}

theorem tells_of_get? (hget : ∀ h, q.get? h = p.get? h) : Tells p [] q :=
  fun h e he => ⟨e, (hget h).symm.trans he, rfl⟩

theorem Tells.trans (first : Tells p told q) (second : Tells q more r) :
    Tells p (told ++ more) r := by
  intro h e he
  have now := second h e he
  rw [latest_append]
  cases hmore : latest h more with
  | some source =>
      rw [hmore] at now
      exact now
  | none =>
      rw [hmore] at now
      obtain ⟨old, hold, same⟩ := now
      have before := first h old hold
      rw [Option.none_or, same]
      exact before

theorem Tells.get? (tells : Tells p told q) (hget : ∀ h, r.get? h = q.get? h) :
    Tells p told r :=
  fun h e he => tells h e ((hget h).symm.trans he)

theorem tells_update (hf : ∀ e, (f e).children = e.children) : Tells p [] (p.update h f) := by
  intro g e he
  rw [get?_update] at he
  split at he
  next heq =>
    obtain ⟨old, hold, rfl⟩ := Option.map_eq_some_iff.mp he
    exact ⟨old, heq ▸ hold, hf old⟩
  next => exact ⟨e, he, rfl⟩

theorem tells_takeOver (bears : source.Bears e.children) :
    Tells p [(h, source)] (p.update h (·.takeOver e)) := by
  intro g new he
  rw [latest_singleton]
  rw [get?_update] at he
  split at he
  next heq =>
    obtain ⟨old, -, rfl⟩ := Option.map_eq_some_iff.mp he
    rw [if_pos heq]
    exact bears
  next hne =>
    rw [if_neg hne]
    exact ⟨new, he, rfl⟩

theorem tells_create (bears : source.Bears e.children) :
    Tells p [(p.instances.length, source)] (p.create e).2 := by
  intro g new he
  rw [latest_singleton]
  rw [get?_create] at he
  split at he
  next heq =>
    cases he
    rw [if_pos heq]
    exact bears
  next hne =>
    rw [if_neg hne]
    exact ⟨new, he, rfl⟩

/-- Every source in the list is an object taken in. -/
def served (objects : List (Handle × Json)) : List (Handle × Source) :=
  objects.map fun (h, raw) => (h, .served raw)

theorem Take.tells {x : Handle × Json} (taken : Take p x q) : Tells p (served [x]) q := by
  cases taken with
  | enter _ read => exact (tells_create (served_bears read)).get? fun _ => rfl
  | refresh _ read => exact tells_takeOver (served_bears read)

theorem Takes.tells {objects : List (Handle × Json)} (taken : Takes p objects q) :
    Tells p (served objects) q := by
  induction taken with
  | nil => exact tells_of_get? fun _ => rfl
  | cons first _ ih => exact first.tells.trans ih

theorem tells_forget (p : Pool) (i : Identity) (h : Handle) : Tells p [] (p.forget i h) := by
  have dropped (q : Pool) (g : Handle) : Tells q [] (q.update g dropId) :=
    tells_update fun _ => rfl
  unfold forget
  split
  next g hi =>
    have uncached : Tells p [] (p.uncache i) := tells_of_get? fun _ => rfl
    exact (uncached.trans (dropped _ g)).trans (dropped _ h)
  next => exact dropped p h

theorem tells_adopt (p : Pool) (e : Entity) :
    Tells p [((p.adopt e).1, .copied e)] (p.adopt e).2 := by
  have bears : (Source.copied e).Bears e.children := rfl
  unfold adopt
  split
  next => exact tells_create bears
  next i named =>
    split
    next h hi => exact tells_takeOver bears
    next hi => exact (tells_create bears).get? fun _ => rfl

/-- What settling the instance `h`, which is `e`, copies over another: itself over the instance that
is cached under the identity. -/
def settledOver (p : Pool) (i : Identity) (h : Handle) (e : Entity) : List (Handle × Source) :=
  match p.lookup i with
  | some g => if g = h then [] else [(g, .copied e)]
  | none => []

theorem tells_settle {i : Identity} (live : p.get? h = some e) :
    Tells p (p.settledOver i h e) (p.settle i h) := by
  unfold settledOver
  cases hi : p.lookup i with
  | none =>
      rw [settle_of_none hi]
      exact tells_of_get? fun _ => rfl
  | some g =>
      by_cases hg : g = h
      · rw [settle_of_eq (hg ▸ hi)]
        simp only [if_pos hg]
        exact tells_of_get? fun _ => rfl
      · rw [settle_of_ne hi live hg]
        simp only [if_neg hg]
        exact tells_takeOver rfl

end Pool

namespace Session

open EntityClient.Action Pool Source

variable {σ : Type}

/-- What saving an instance copies over another. -/
def savedOver (t : Transport σ) (s : Session σ) (h : Handle) : List (Handle × Source) :=
  match (exec (save t h) s).1, (exec (save t h) s).2.pool.get? h with
  | .ok _, some e =>
      match e.identity with
      | some i => s.pool.settledOver i h e
      | none => []
  | _, _ => []

/-- The instances that a call gives children to, in order, each with what they come from. -/
def sources (t : Transport σ) (s : Session σ) : Call → List (Handle × Source)
  | .make e => [(s.pool.instances.length, .copied e)]
  | .adopt e => [((s.pool.adopt e).1, .copied e)]
  | .save h => savedOver t s h
  | c => served (hydrations t s c)

/-- The sources of a run. -/
def runSources (t : Transport σ) (s : Session σ) : List Call → List (Handle × Source)
  | [] => []
  | c :: rest => sources t s c ++ runSources t (step t s c) rest

theorem savedOver_of_idle (t : Transport σ) {s : Session σ} {h : Handle}
    (idle : (exec (save t h) s).1 = .ok () → (exec (save t h) s).2.pool.get? h = none) :
    savedOver t s h = [] := by
  unfold savedOver
  split
  next ok live =>
    rw [idle ok] at live
    cases live
  next => rfl

theorem savedOver_of_ok (t : Transport σ) {s : Session σ} {h : Handle} {e : Entity}
    {i : Identity} (ok : (exec (save t h) s).1 = .ok ())
    (saved : (exec (save t h) s).2.pool.get? h = some e) (named : e.identity = some i) :
    savedOver t s h = s.pool.settledOver i h e := by
  rw [savedOver, ok, saved]
  simp only [named]

theorem save_tells (t : Transport σ) (s : Session σ) (h : Handle) :
    Tells s.pool (savedOver t s h) (exec (save t h) s).2.pool := by
  obtain ⟨idle, hpool⟩ | ⟨e, id, ok, live, -, hpool⟩ := save_pool t s h
  · rw [savedOver_of_idle t fun ok => hpool ▸ idle ok]
    exact tells_of_get? fun g => by rw [hpool]
  · -- the instance gets its id first, and is then settled with it
    let saved : Entity := { e with id := some id }
    have named : Tells s.pool [] (s.pool.update h fun e => { e with id := some id }) :=
      tells_update fun _ => rfl
    have live' : (s.pool.update h fun e => { e with id := some id }).get? h = some saved :=
      get?_update_self _ live
    have after : (exec (save t h) s).2.pool.get? h = some saved := by
      rw [hpool]
      exact get?_settle_self live'
    rw [savedOver_of_ok t ok after rfl, hpool]
    exact named.trans (tells_settle live')

theorem delete_tells (t : Transport σ) (s : Session σ) (h : Handle) :
    Tells s.pool [] (exec (delete t h) s).2.pool := by
  obtain hpool | ⟨e, i, -, -, -, hpool⟩ := delete_pool t s h
  · exact tells_of_get? fun g => by rw [hpool]
  · rw [hpool]
    exact tells_forget s.pool i h

/-- In every call, the instances that get children get those of their latest source, and all others
keep theirs. -/
theorem step_tells (t : Transport σ) (s : Session σ) (c : Call) :
    Tells s.pool (sources t s c) (step t s c).pool := by
  cases c with
  | find | list | resolve | loadSchema | currentRevision | changesSince | configure =>
      refine Takes.tells (step_takes t s ?_)
      trivial
  | save h =>
      rw [step_save]
      exact save_tells t s h
  | delete h =>
      rw [step_delete]
      exact delete_tells t s h
  | adopt e => exact tells_adopt s.pool e
  | make e => exact tells_create rfl
  | edit h x => exact tells_update x.children_apply
  | evictStale c => exact tells_of_get? fun h => get?_evict s.pool h c.stale
  | clearCache => exact tells_of_get? fun _ => rfl

theorem run_tells (t : Transport σ) (s : Session σ) (calls : List Call) :
    Tells s.pool (runSources t s calls) (run t s calls).pool := by
  induction calls generalizing s with
  | nil => exact tells_of_get? fun _ => rfl
  | cons c rest ih => exact (step_tells t s c).trans (ih (step t s c))

/-- Saving an instance gives it no children, whatever it gives to others. -/
theorem latest_savedOver (t : Transport σ) (s : Session σ) (h : Handle) :
    latest h (savedOver t s h) = none := by
  unfold savedOver settledOver
  split
  · split
    · split
      · split
        next hg => rfl
        next hg => rw [latest_singleton, if_neg (Ne.symm hg)]
      · rfl
    · rfl
  · rfl

/-- In every state of every run, a cached instance has the children of the object that was last
hydrated into it, unless another entity was copied over it since. Every instance at all has the
children of its latest source, and a save of the instance itself is none. -/
theorem run_children (t : Transport σ) (remote : σ) (settings : Settings) (calls : List Call) :
    let s := run t (start remote settings) calls
    let told := runSources t (start remote settings) calls
    (∀ i h object, s.pool.lookup i = some h → latest h told = some (.served object) →
      ∃ e children, s.pool.get? h = some e ∧
        readIdMap (object.get? "children") = .ok children ∧ e.children = .ofList children) ∧
    (∀ h e, s.pool.get? h = some e → ∃ source, latest h told = some source ∧
      source.Bears e.children) ∧
    ∀ h, latest h (sources t s (.save h)) = none := by
  intro s told
  have tells : Tells (start remote settings).pool told s.pool := run_tells t _ calls
  have coherent : s.pool.Coherent := (run_coherent Coherent.empty calls).1
  refine ⟨fun i h object cached last => ?_, fun h e live => ?_, latest_savedOver t s⟩
  · obtain ⟨e, live, -⟩ := coherent i h cached
    have bears := tells h e live
    rw [last] at bears
    obtain ⟨children, read, same⟩ := bears
    exact ⟨e, children, live, read, same⟩
  · have bears := tells h e live
    cases last : latest h told with
    | some source =>
        rw [last] at bears
        exact ⟨source, rfl, bears⟩
    | none =>
        -- nothing was live at the start
        rw [last] at bears
        obtain ⟨old, hold, -⟩ := bears
        cases hold

/-- An object with one child. -/
def oneChild : Json := .obj [("children", .obj [("debitor", .arr [.word 7])])]

/-- Found, edited and saved, the instance has the child that it was served with. -/
theorem run_children_served :
    let calls := [.find ⟨"member", 1⟩, .edit 0 (.parents [3]), .save 0]
    let s := run (serving oneChild) (start () {}) calls
    s.pool.lookup ⟨"member", 1⟩ = some 0 ∧
      latest 0 (runSources (serving oneChild) (start () {}) calls) = some (.served oneChild) ∧
      ∃ e children, s.pool.get? 0 = some e ∧
        readIdMap (oneChild.get? "children") = .ok children ∧ e.children = .ofList children := by
  intro calls s
  have cached : s.pool.lookup ⟨"member", 1⟩ = some 0 := rfl
  have last : latest 0 (runSources (serving oneChild) (start () {}) calls) =
    some (.served oneChild) := rfl
  exact ⟨cached, last, (run_children (serving oneChild) () {} calls).1 _ _ _ cached last⟩

/-- Another instance with the same identity is saved, and the cached one loses the child that it was
served with. -/
theorem run_children_lost :
    let twin : Entity := { id := some 1, kind := .member }
    let calls := [.find ⟨"member", 1⟩, .make twin, .save 1]
    let s := run (serving oneChild) (start () {}) calls
    s.pool.lookup ⟨"member", 1⟩ = some 0 ∧
      runSources (serving oneChild) (start () {}) calls =
        [(0, .served oneChild), (1, .copied twin), (0, .copied twin)] ∧
      readIdMap (oneChild.get? "children") = .ok [("debitor", [7])] ∧
      (s.pool.get? 0).map Entity.children = some .empty :=
  ⟨rfl, rfl, rfl, rfl⟩

end Session
end EntityClient
