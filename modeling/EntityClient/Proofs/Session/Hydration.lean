import EntityClient.Proofs.Session.Exec

/-!
Hydration: the objects of the store that a call takes into the pool, in order, each with the handle
of the instance that it goes to. A found object becomes a new instance. A listed one becomes a new
instance or refreshes the cached one. Reading does nothing else to the pool.
-/

namespace EntityClient

namespace Pool

/-- An object goes into the instance of a handle: a new instance or the cached one. -/
inductive Take : Pool → Handle × Json → Pool → Prop
  | enter {p i raw schema e} (fresh : p.lookup i = none)
      (read : Entity.ofJson i.type i.id raw schema = .ok e) :
      Take p (p.instances.length, raw) (p.enter i e).2
  | refresh {p i h raw schema e} (cached : p.lookup i = some h)
      (read : Entity.ofJson i.type i.id raw schema = .ok e) :
      Take p (h, raw) (p.update h (·.takeOver e))

/-- Objects go into the pool one after another. -/
inductive Takes : Pool → List (Handle × Json) → Pool → Prop
  | nil (p) : Takes p [] p
  | cons {p q r x rest} (first : Take p x q) (later : Takes q rest r) : Takes p (x :: rest) r

variable {p q r : Pool} {x : Handle × Json} {objects more : List (Handle × Json)}

theorem Take.takes (taken : Take p x q) : Takes p [x] q := .cons taken (.nil q)

theorem takes_nil_of_eq (h : q = p) : Takes p [] q := h ▸ .nil q

theorem Takes.append (first : Takes p objects q) (later : Takes q more r) :
    Takes p (objects ++ more) r := by
  induction first with
  | nil => exact later
  | cons taken _ ih => exact .cons taken (ih later)

end Pool

namespace Session

open EntityClient.Action Pool

variable {σ : Type} {α β : Type}

/-! Full listings -/

/-- One object of a full listing, as an id and an entity. -/
def readListed (schema : Option TypeSchema) (type : String) (object : Json) :
    Except Failure (UInt64 × Entity) :=
  match listedId ("/" ++ type) object with
  | .ok id => (Entity.ofJson type id object schema).map fun e => (id, e)
  | .error x => .error x

/-- What the schema says about a type. -/
def typeSchema (s : Session σ) (type : String) : Option TypeSchema := s.schema.bind (·.get? type)

theorem exec_listObject (type : String) (object : Json) (s : Session σ) :
    exec (listObject type ("/" ++ type) object) s =
      match readListed (s.typeSchema type) type object with
      | .ok (id, e) =>
          (.ok id, { s with pool := s.pool.list s.settings.refreshListed ⟨type, id⟩ e })
      | .error x => (.error x, s) := by
  simp only [listObject, readListed, readEntity, exec_bind, exec_liftM, exec_get]
  cases listedId ("/" ++ type) object with
  | error x => rfl
  | ok id =>
      simp only [typeSchema]
      cases Entity.ofJson type id object (s.schema.bind (·.get? type)) <;> rfl

theorem listedObjects_eq_ok {path : String} {v : Json} {objects : List Json}
    (h : listedObjects path v = .ok objects) : v = .arr objects := by
  cases v with
  | arr items => exact congrArg Json.arr (Except.ok.inj h)
  | _ => cases h

/-- What a full listing does before its first object: it asks for the objects, and for the schema if
that is needed. -/
def openListing (t : Transport σ) (type : String) (query : Option Filter.Query)
    (order : List (String × String)) : Action σ (List Json) := do
  let order ← SortOrder.render order
  let filter ← renderFilter query
  let objects ← listedObjects ("/" ++ type)
    (← read t ("/" ++ type) (listParameters filter order true))
  ensureSchema t
  return objects

section Full

variable (t : Transport σ) (type : String) (query : Option Filter.Query)
  (order : List (String × String))

theorem list_full :
    list t type query order true = do
      let objects ← openListing t type query order
      return ⟨type, ← objects.mapM (listObject type ("/" ++ type))⟩ := by
  simp [list, openListing]

/-- Opening a listing leaves the pool alone, and gives the objects that the store has served. -/
theorem exec_openListing (s : Session σ) :
    (∃ x remote schema,
      exec (openListing t type query order) s = (.error x, { s with remote, schema })) ∨
    ∃ orderText filter objects remote schema, SortOrder.render order = .ok orderText ∧
      renderFilter query = .ok filter ∧
      (t.read ("/" ++ type) (listParameters filter orderText true) s.remote).1 =
        .ok (.arr objects) ∧
      exec (openListing t type query order) s = (.ok objects, { s with remote, schema }) := by
  simp only [openListing, exec_bind, exec_liftM, exec_read]
  cases ordered : SortOrder.render order with
  | error x => exact .inl ⟨x, s.remote, s.schema, rfl⟩
  | ok orderText =>
      simp only
      cases filtered : renderFilter query with
      | error x => exact .inl ⟨x, s.remote, s.schema, rfl⟩
      | ok filter =>
          simp only
          rcases hr : t.read ("/" ++ type) (listParameters filter orderText true) s.remote with
            ⟨x | answer, remote⟩
          · exact .inl ⟨x, remote, s.schema, rfl⟩
          · simp only
            cases harray : listedObjects ("/" ++ type) answer with
            | error x => exact .inl ⟨x, remote, s.schema, rfl⟩
            | ok objects =>
                obtain ⟨remote', schema, hframe⟩ := exec_ensureSchema_frame t { s with remote }
                rcases hs : exec (ensureSchema t) { s with remote } with ⟨x | _, s₁⟩
                · rw [hs] at hframe
                  subst hframe
                  exact .inl ⟨x, remote', schema, by simp only [hs]⟩
                · rw [hs] at hframe
                  subst hframe
                  refine .inr ⟨orderText, filter, objects, remote', schema, rfl, rfl, ?_, ?_⟩
                  · rw [hr, listedObjects_eq_ok harray]
                  · simp only [hs]
                    rfl

end Full

/-! What is hydrated -/

/-- What finding hydrates: the object served, if it is asked for and can be read. -/
def foundObjects (t : Transport σ) (s : Session σ) (i : Identity) : List (Handle × Json) :=
  match s.pool.lookup i, (t.read i.path [] s.remote).1, (exec (find t i) s).1 with
  | none, .ok raw, .ok h => [(h, raw)]
  | _, _, _ => []

/-- What taking in one listed object hydrates. -/
def listedObject (type : String) (s : Session σ) (object : Json) : List (Handle × Json) :=
  match readListed (s.typeSchema type) type object with
  | .error _ => []
  | .ok (id, _) =>
      match s.pool.lookup ⟨type, id⟩ with
      | none => [(s.pool.instances.length, object)]
      | some h => if s.settings.refreshListed then [(h, object)] else []

/-- What a row of actions hydrates, up to the first that fails. -/
def rowObjects (f : α → Action σ β) (objects : Session σ → α → List (Handle × Json))
    (s : Session σ) : List α → List (Handle × Json)
  | [] => []
  | x :: rest =>
      objects s x ++
        match exec (f x) s with
        | (.ok _, s₁) => rowObjects f objects s₁ rest
        | (.error _, _) => []

/-- What a full listing hydrates. -/
def listingObjects (t : Transport σ) (s : Session σ) (type : String) (query : Option Filter.Query)
    (order : List (String × String)) : List (Handle × Json) :=
  match exec (openListing t type query order) s with
  | (.ok objects, s₁) => rowObjects (listObject type ("/" ++ type)) (listedObject type) s₁ objects
  | (.error _, _) => []

theorem find_takes (t : Transport σ) (i : Identity) (s : Session σ) :
    Takes s.pool (foundObjects t s i) (exec (find t i) s).2.pool := by
  unfold foundObjects
  cases hi : s.pool.lookup i with
  | some h =>
      rw [exec_find_cached t hi]
      exact .nil _
  | none =>
      obtain ⟨raw, s₁, e, served, -, read, found⟩ | ⟨x, s₁, failed, hpool⟩ := exec_find_served t hi
      · rw [found, served]
        exact (Take.enter hi read).takes
      · rw [failed]
        cases (t.read i.path [] s.remote).1 <;> exact takes_nil_of_eq hpool

theorem readListed_eq_ok_iff {schema : Option TypeSchema} {type : String} {object : Json}
    {id : UInt64} {e : Entity} :
    readListed schema type object = .ok (id, e) ↔
      listedId ("/" ++ type) object = .ok id ∧ Entity.ofJson type id object schema = .ok e := by
  unfold readListed
  cases listedId ("/" ++ type) object with
  | error x => simp
  | ok id' =>
      cases he : Entity.ofJson type id' object schema with
      | error x =>
          simp only [he, Except.map, reduceCtorEq, Except.ok.injEq, false_iff, not_and]
          rintro rfl
          simp [he]
      | ok e' =>
          simp only [he, Except.map, Except.ok.injEq, Prod.mk.injEq]
          constructor
          · rintro ⟨rfl, rfl⟩
            exact ⟨rfl, he⟩
          · rintro ⟨rfl, read⟩
            exact ⟨rfl, Except.ok.inj (he.symm.trans read)⟩

theorem ofJson_of_readListed {schema : Option TypeSchema} {type : String} {object : Json}
    {id : UInt64} {e : Entity} (h : readListed schema type object = .ok (id, e)) :
    Entity.ofJson type id object schema = .ok e := (readListed_eq_ok_iff.mp h).2

theorem listObject_takes (type : String) (object : Json) (s : Session σ) :
    Takes s.pool (listedObject type s object)
      (exec (listObject type ("/" ++ type) object) s).2.pool := by
  rw [exec_listObject, listedObject]
  cases listed : readListed (s.typeSchema type) type object with
  | error x => exact .nil _
  | ok r =>
      obtain ⟨id, e⟩ := r
      have read := ofJson_of_readListed listed
      simp only [Pool.list]
      cases hi : s.pool.lookup ⟨type, id⟩ with
      | none => exact (Take.enter hi read).takes
      | some h =>
          simp only
          split
          · exact (Take.refresh hi read).takes
          · exact .nil _

theorem mapM_takes {f : α → Action σ β} {objects : Session σ → α → List (Handle × Json)}
    (hf : ∀ x s, Takes s.pool (objects s x) (exec (f x) s).2.pool) (l : List α) (s : Session σ) :
    Takes s.pool (rowObjects f objects s l) (exec (l.mapM f) s).2.pool := by
  induction l generalizing s with
  | nil => exact .nil _
  | cons x rest ih =>
      have first := hf x s
      rw [List.mapM_cons, rowObjects]
      rcases hx : exec (f x) s with ⟨fault | y, s₁⟩
      · rw [exec_bind_of_error hx, List.append_nil]
        rwa [hx] at first
      · rw [exec_bind_of_ok hx]
        rw [hx] at first
        refine first.append ?_
        have later := ih s₁
        rcases hrest : exec (rest.mapM f) s₁ with ⟨fault | ys, s₂⟩
        · rw [exec_bind_of_error hrest]
          rwa [hrest] at later
        · rw [exec_bind_of_ok hrest]
          rwa [hrest] at later

/-- A listing of ids takes in nothing. -/
theorem list_ids_pool (t : Transport σ) (type : String) (query : Option Filter.Query)
    (order : List (String × String)) (s : Session σ) :
    s.pool = (exec (list t type query order false) s).2.pool := by
  unfold list
  refine exec_bind_pool rfl fun orderText s₁ _ => ?_
  refine exec_bind_pool rfl fun filter s₂ _ => ?_
  refine exec_bind_pool rfl fun answer s₃ _ => ?_
  exact exec_bind_pool rfl fun ids s₄ _ => rfl

theorem list_full_takes (t : Transport σ) (type : String) (query : Option Filter.Query)
    (order : List (String × String)) (s : Session σ) :
    Takes s.pool (listingObjects t s type query order)
      (exec (list t type query order true) s).2.pool := by
  rw [list_full, listingObjects]
  obtain ⟨x, remote, schema, hopen⟩ | ⟨-, -, objects, remote, schema, -, -, -, hopen⟩ :=
    exec_openListing t type query order s
  · rw [exec_bind_of_error hopen, hopen]
    exact .nil _
  · rw [exec_bind_of_ok hopen, hopen]
    have taken := mapM_takes (fun object s => listObject_takes type object s) objects
      { s with remote, schema }
    rcases hrow : exec (objects.mapM (listObject type ("/" ++ type)))
      { s with remote, schema } with ⟨x | ids, s₁⟩
    · rw [exec_bind_of_error hrow]
      rwa [hrow] at taken
    · rw [exec_bind_of_ok hrow]
      rwa [hrow] at taken

end Session
end EntityClient
