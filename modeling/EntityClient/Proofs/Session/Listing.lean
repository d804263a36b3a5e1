import EntityClient.Proofs.Session.Run

/-!
Full listings, object by object. Each object is read as an entity with an id, and the pool takes
the entities in one after another. A listing that fails stops there: what stands before the object
that cannot be read has been taken in, and neither that object nor those behind it do anything.
-/

namespace EntityClient

namespace Pool

variable {p : Pool} {refresh : Bool} {type : String} {i j : Identity} {h : Handle} {e old : Entity}

theorem lookup_list (p : Pool) (refresh : Bool) (i j : Identity) (e : Entity) :
    (p.list refresh i e).lookup j =
      if j = i ∧ p.lookup i = none then some p.instances.length else p.lookup j := by
  unfold list
  cases hi : p.lookup i with
  | none => by_cases hj : j = i <;> simp [hj]
  | some h => by_cases hr : refresh = true <;> simp [hr]

/-- An instance that is there is changed only if it is the one to refresh. -/
theorem get?_list (live : p.get? h = some old)
    (spared : refresh = true → p.lookup i ≠ some h) :
    (p.list refresh i e).get? h = some old := by
  unfold list
  cases hi : p.lookup i with
  | none => exact get?_create_of_some e live
  | some g =>
      by_cases hr : refresh = true
      · have hne : h ≠ g := fun hg => spared hr (hg ▸ hi)
        simp [hr, get?_update, hne, live]
      · simp [hr, live]

/-- Takes listed entities of a type into the pool, each with the id it is listed under. -/
def listAll (p : Pool) (refresh : Bool) (type : String) (listed : List (UInt64 × Entity)) : Pool :=
  listed.foldl (fun p (id, e) => p.list refresh ⟨type, id⟩ e) p

variable {listed : List (UInt64 × Entity)}

theorem lookup_listAll_of_some (cached : p.lookup i = some h) :
    (p.listAll refresh type listed).lookup i = some h := by
  induction listed generalizing p with
  | nil => exact cached
  | cons x rest ih =>
      refine ih (p := p.list refresh ⟨type, x.1⟩ x.2) ?_
      rw [lookup_list, if_neg, cached]
      rintro ⟨rfl, free⟩
      rw [cached] at free
      cases free

/-- Every listed identity is cached in the end. -/
theorem lookup_listAll_listed {x : UInt64 × Entity} (mem : x ∈ listed) :
    ∃ h, (p.listAll refresh type listed).lookup ⟨type, x.1⟩ = some h := by
  induction listed generalizing p with
  | nil => cases mem
  | cons y rest ih =>
      cases List.mem_cons.mp mem with
      | inr later => exact ih (p := p.list refresh ⟨type, y.1⟩ y.2) later
      | inl heq =>
          subst heq
          cases hp : p.lookup ⟨type, x.1⟩ with
          | some h => exact ⟨h, lookup_listAll_of_some hp⟩
          | none =>
              refine ⟨p.instances.length, ?_⟩
              refine lookup_listAll_of_some (p := p.list refresh ⟨type, x.1⟩ x.2) ?_
              rw [lookup_list, if_pos ⟨rfl, hp⟩]

/-- Nothing is cached in the end but what was and what is listed. -/
theorem lookup_listAll_cases (cached : (p.listAll refresh type listed).lookup i = some h) :
    p.lookup i = some h ∨ ∃ x ∈ listed, i = ⟨type, x.1⟩ := by
  induction listed generalizing p with
  | nil => exact .inl cached
  | cons x rest ih =>
      obtain earlier | ⟨y, mem, hy⟩ := ih (p := p.list refresh ⟨type, x.1⟩ x.2) cached
      · rw [lookup_list] at earlier
        split at earlier
        next new => exact .inr ⟨x, List.mem_cons_self, new.1⟩
        next => exact .inl earlier
      · exact .inr ⟨y, List.mem_cons_of_mem x mem, hy⟩

theorem get?_listAll (live : p.get? h = some old)
    (spared : refresh = true → ∀ x ∈ listed, p.lookup ⟨type, x.1⟩ ≠ some h) :
    (p.listAll refresh type listed).get? h = some old := by
  induction listed generalizing p with
  | nil => exact live
  | cons x rest ih =>
      refine ih (p := p.list refresh ⟨type, x.1⟩ x.2) ?_ fun hr y mem => ?_
      · exact get?_list live fun hr => spared hr x List.mem_cons_self
      · -- a new handle is none that was there before
        have hlt : h < p.instances.length := (List.getElem?_eq_some_iff.mp live).1
        rw [lookup_list]
        split
        · exact fun hlen => Nat.ne_of_gt hlt (Option.some.inj hlen)
        · exact spared hr y (List.mem_cons_of_mem x mem)

end Pool

namespace Session

open EntityClient.Action

variable {σ : Type}

/-- Objects that can all be read are taken in one after another. -/
theorem exec_mapM_listObject {type : String} {objects : List Json} {s s' : Session σ}
    {ids : List UInt64}
    (taken : exec (objects.mapM (listObject type ("/" ++ type))) s = (.ok ids, s')) :
    ∃ listed, objects.mapM (readListed (s.typeSchema type) type) = .ok listed ∧
      ids = listed.map Prod.fst ∧
      s' = { s with pool := s.pool.listAll s.settings.refreshListed type listed } := by
  induction objects generalizing s ids with
  | nil =>
      cases taken
      exact ⟨[], rfl, rfl, rfl⟩
  | cons object rest ih =>
      rw [List.mapM_cons] at taken
      obtain ⟨id, s₁, hobject, taken⟩ := exec_bind_succeeded taken
      obtain ⟨ids', s₂, hrest, taken⟩ := exec_bind_succeeded taken
      cases taken
      obtain ⟨listed, hlisted, rfl, rfl⟩ := ih hrest
      rw [exec_listObject] at hobject
      cases hread : readListed (s.typeSchema type) type object with
      | error x =>
          rw [hread] at hobject
          cases hobject
      | ok x =>
          rw [hread] at hobject
          cases hobject
          refine ⟨x :: listed, ?_, rfl, rfl⟩
          have hlisted' : rest.mapM (readListed (s.typeSchema type) type) = .ok listed := hlisted
          rw [List.mapM_cons, hread, hlisted']
          rfl

section Full

variable (t : Transport σ) (type : String) (query : Option Filter.Query)
  (order : List (String × String))

/-- The entities that a full listing of `type` has taken in when it fails with `x`: none if it
cannot be opened, else those of the objects before the first one that cannot be read. -/
inductive Stopped (s s' : Session σ) (x : Failure) : List (UInt64 × Entity) → Prop
  | opening (fault : (exec (openListing t type query order) s).1 = .error x) : Stopped s s' x []
  | reading {orderText filter done object rest listed}
      (ordered : SortOrder.render order = .ok orderText)
      (filtered : renderFilter query = .ok filter)
      (served : (t.read ("/" ++ type) (listParameters filter orderText true) s.remote).1 =
        .ok (.arr (done ++ object :: rest)))
      (readable : done.mapM (readListed (s'.typeSchema type) type) = .ok listed)
      (unreadable : readListed (s'.typeSchema type) type object = .error x) :
      Stopped s s' x listed

variable {t type query order}

theorem exec_list_failed {s s' : Session σ} {x : Failure}
    (failed : exec (list t type query order true) s = (.error x, s')) :
    ∃ listed, Stopped t type query order s s' x listed ∧
      s'.pool = s.pool.listAll s.settings.refreshListed type listed := by
  rw [list_full] at failed
  obtain ⟨y, remote, schema, hopen⟩ |
    ⟨orderText, filter, objects, remote, schema, ordered, filtered, served, hopen⟩ :=
    exec_openListing t type query order s
  · rw [exec_bind_of_error hopen] at failed
    cases failed
    exact ⟨[], .opening (congrArg Prod.fst hopen), rfl⟩
  · rw [exec_bind_of_ok hopen] at failed
    obtain failed | ⟨ids, s₂, -, failed⟩ := exec_bind_failed failed
    · obtain ⟨done, object, rest, ids, s₂, rfl, hdone, hobject⟩ := exec_mapM_failed failed
      obtain ⟨listed, readable, -, rfl⟩ := exec_mapM_listObject hdone
      rw [exec_listObject] at hobject
      split at hobject
      next => cases hobject
      next unreadable =>
        cases hobject
        exact ⟨listed, .reading ordered filtered served readable unreadable, rfl⟩
    · cases failed

/-- A full listing that fails has done what taking in the objects before the first unreadable one
does, and nothing else: whatever was cached stays cached as the same instance, only listed
identities are cached in addition, and only instances to be refreshed have changed. -/
theorem list_failed {s s' : Session σ} {x : Failure}
    (failed : exec (list t type query order true) s = (.error x, s')) :
    ∃ listed, Stopped t type query order s s' x listed ∧
      s'.pool = s.pool.listAll s.settings.refreshListed type listed ∧
      (∀ i h, s.pool.lookup i = some h → s'.pool.lookup i = some h) ∧
      (∀ i h, s'.pool.lookup i = some h →
        s.pool.lookup i = some h ∨ ∃ o ∈ listed, i = ⟨type, o.1⟩) ∧
      (∀ o ∈ listed, ∃ h, s'.pool.lookup ⟨type, o.1⟩ = some h) ∧
      ∀ h e, s.pool.get? h = some e →
        (s.settings.refreshListed = true → ∀ o ∈ listed, s.pool.lookup ⟨type, o.1⟩ ≠ some h) →
        s'.pool.get? h = some e := by
  obtain ⟨listed, stopped, hpool⟩ := exec_list_failed failed
  refine ⟨listed, stopped, hpool, ?_, ?_, ?_, ?_⟩ <;> rw [hpool]
  · exact fun i h cached => Pool.lookup_listAll_of_some cached
  · exact fun i h cached => Pool.lookup_listAll_cases cached
  · exact fun o mem => Pool.lookup_listAll_listed mem
  · exact fun h e live spared => Pool.get?_listAll live spared

end Full

/-- Serves any member, and a listing of three whose last object has no id. -/
def brokenListing : Transport Unit where
  read path _ s :=
    (.ok (if path = "/member" then
        .arr [.obj [("id", .word 1), ("readonly", .bool true)], .obj [("id", .word 2)], .obj []]
      else .obj []), s)
  write _ s := (.error (.notFound ""), s)

/-- A member that was found has been refreshed and another one cached when the listing fails. -/
theorem list_failed_refreshes :
    let s := run brokenListing (start () {}) [.find ⟨"member", 1⟩]
    let r := exec (list brokenListing "member" none [] true) s
    r.1 = .error (.malformed (.listedWithoutId "/member")) ∧
      s.pool.lookup ⟨"member", 2⟩ = none ∧ r.2.pool.lookup ⟨"member", 2⟩ = some 1 ∧
      (s.pool.get? 0).map Entity.readonly = some false ∧
      (r.2.pool.get? 0).map Entity.readonly = some true :=
  ⟨rfl, rfl, rfl, rfl, rfl⟩

theorem list_failed_broken :
    let s := run brokenListing (start () {}) [.find ⟨"member", 1⟩]
    let s' := (exec (list brokenListing "member" none [] true) s).2
    let x : Failure := .malformed (.listedWithoutId "/member")
    exec (list brokenListing "member" none [] true) s = (.error x, s') ∧
      ∃ listed, Stopped brokenListing "member" none [] s s' x listed ∧
        s'.pool = s.pool.listAll true "member" listed ∧
        s'.pool.lookup ⟨"member", 1⟩ = some 0 := by
  intro s s' x
  have failed : exec (list brokenListing "member" none [] true) s = (.error x, s') := rfl
  obtain ⟨listed, stopped, hpool, kept, -⟩ := list_failed failed
  exact ⟨failed, listed, stopped, hpool, kept _ _ rfl⟩

end Session
end EntityClient
