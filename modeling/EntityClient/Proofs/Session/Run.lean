import EntityClient.Proofs.Session.Hydration
import Mathlib.Logic.Relation

/-!
Runs: any row of calls on one session, with edits of any instance between them. `step_effect` says
what one call can do to the pool. All of it is made of a few moves, save for what a write, an
eviction or a cleared cache does. For the calls that read, `step_takes` tells the moves one by one.
-/

namespace EntityClient

inductive Edit where
  | property (name : String) (v : Value)
  | properties (m : SortedMap String Value)
  | parents (ids : List UInt64)
  | links (type : String) (ids : List UInt64)

namespace Edit

def apply : Edit → Entity → Entity
  | .property name v, e => e.setProperty name v
  | .properties m, e => { e with properties := m }
  | .parents ids, e => { e with parents := ids }
  | .links type ids, e => e.setLinks type ids

@[simp]
theorem id_apply (x : Edit) (e : Entity) : (x.apply e).id = e.id := by cases x <;> rfl

@[simp]
theorem type_apply (x : Edit) (e : Entity) : (x.apply e).type = e.type := by cases x <;> rfl

@[simp]
theorem children_apply (x : Edit) (e : Entity) : (x.apply e).children = e.children := by
  cases x <;> rfl

@[simp]
theorem identity_apply (x : Edit) (e : Entity) : (x.apply e).identity = e.identity := by
  cases x <;> rfl

end Edit

inductive Call where
  | find (i : Identity)
  | list (type : String) (query : Option Filter.Query) (order : List (String × String))
      (full : Bool)
  | resolve (l : IdList)
  | save (h : Handle)
  | delete (h : Handle)
  | adopt (e : Entity)
  | make (e : Entity)
  | edit (h : Handle) (x : Edit)
  | loadSchema
  | currentRevision
  | changesSince (since : UInt64)
  | evictStale (c : Delta)
  | clearCache
  | configure (settings : Settings)

inductive Reply where
  | done
  | handle (h : Handle)
  | handles (l : List Handle)
  | listed (l : IdList)
  | schema (s : Schema)
  | revision (r : UInt64)
  | changes (c : Delta)
  | evicted (n : Nat)

namespace Pool

/-- The changes that reading, adopting and editing are made of. -/
inductive Move : Pool → Pool → Prop
  | enter {p i e} (fresh : p.lookup i = none) (named : e.identity = some i) :
      Move p (p.enter i e).2
  | refresh {p i h e} (cached : p.lookup i = some h) (named : e.identity = some i) :
      Move p (p.update h (·.takeOver e))
  | create (p e) : Move p (p.create e).2
  | edit (p h) (x : Edit) : Move p (p.update h x.apply)

def Moves : Pool → Pool → Prop := Relation.ReflTransGen Move

theorem Move.moves {p q : Pool} (m : Move p q) : Moves p q := .single m

theorem moves_of_eq {p q : Pool} (h : q = p) : Moves p q := h ▸ .refl

theorem Takes.moves {p q : Pool} {objects : List (Handle × Json)} (taken : Takes p objects q) :
    Moves p q := by
  induction taken with
  | nil => exact .refl
  | cons first _ ih =>
      refine .trans (Move.moves ?_) ih
      cases first with
      | enter fresh read => exact .enter fresh (Entity.identity_ofJson read)
      | refresh cached read => exact .refresh cached (Entity.identity_ofJson read)

theorem adopt_moves (p : Pool) (e : Entity) : Moves p (p.adopt e).2 := by
  unfold adopt
  split
  next => exact (Move.create p e).moves
  next i named =>
    split
    next h hi => exact (Move.refresh hi named).moves
    next hi => exact (Move.enter hi named).moves

end Pool

namespace Call

open Session EntityClient.Action

variable {σ : Type}

def action (t : Transport σ) : Call → Action σ Reply
  | .find i => .handle <$> Session.find t i
  | .list type query order full => .listed <$> Session.list t type query order full
  | .resolve l => .handles <$> Session.resolve t l
  | .save h => (fun _ => .done) <$> Session.save t h
  | .delete h => (fun _ => .done) <$> Session.delete t h
  | .adopt e => .handle <$> Session.adopt e
  | .make e => .handle <$> Session.make e
  | .edit h x => (fun _ => .done) <$> Session.edit h x.apply
  | .loadSchema => .schema <$> Session.loadSchema t
  | .currentRevision => .revision <$> Session.currentRevision t
  | .changesSince since => .changes <$> Session.changesSince t since
  | .evictStale c => .evicted <$> Session.evictStale c
  | .clearCache => (fun _ => .done) <$> Session.clearCache
  | .configure settings =>
      (fun _ => .done) <$> (modify fun s => { s with settings } : Action σ Unit)

/-- The calls that change the pool by hydration only, if at all. -/
def Reads : Call → Prop
  | .find _ | .list .. | .resolve _ | .loadSchema | .currentRevision | .changesSince _
  | .configure _ => True
  | _ => False

def Succeeds (t : Transport σ) (s : Session σ) (c : Call) : Prop :=
  ∃ r, (exec (c.action t) s).1 = .ok r

end Call

namespace Session

open EntityClient.Action Pool

variable {σ : Type}

/-- The session after a call, whatever the call answers. -/
def step (t : Transport σ) (s : Session σ) (c : Call) : Session σ := (exec (c.action t) s).2

def run (t : Transport σ) (s : Session σ) (calls : List Call) : Session σ := calls.foldl (step t) s

def start (remote : σ) (settings : Settings) : Session σ := { remote, settings }

/-- What a call hydrates. -/
def hydrations (t : Transport σ) (s : Session σ) : Call → List (Handle × Json)
  | .find i => foundObjects t s i
  | .resolve l =>
      rowObjects (fun id => find t ⟨l.type, id⟩) (fun s id => foundObjects t s ⟨l.type, id⟩) s l.ids
  | .list type query order true => listingObjects t s type query order
  | _ => []

/-- What a reading call does to the pool is told by what it hydrates. -/
theorem step_takes (t : Transport σ) (s : Session σ) {c : Call} (reads : c.Reads) :
    Takes s.pool (hydrations t s c) (step t s c).pool := by
  cases c with
  | find i =>
      rw [step, Call.action, exec_map]
      exact find_takes t i s
  | list type query order full =>
      rw [step, Call.action, exec_map]
      cases full with
      | true => exact list_full_takes t type query order s
      | false => exact takes_nil_of_eq (list_ids_pool t type query order s).symm
  | resolve l =>
      rw [step, Call.action, exec_map]
      exact mapM_takes (fun id s => find_takes t ⟨l.type, id⟩ s) l.ids s
  | loadSchema =>
      rw [step, Call.action, exec_map]
      exact takes_nil_of_eq (exec_loadSchema_pool t s)
  | currentRevision =>
      rw [step, Call.action, exec_map]
      refine takes_nil_of_eq (Eq.symm ?_)
      exact exec_bind_pool rfl fun _ _ _ => rfl
  | changesSince since =>
      rw [step, Call.action, exec_map]
      refine takes_nil_of_eq (Eq.symm ?_)
      exact exec_bind_pool rfl fun _ _ _ => rfl
  | configure settings => exact .nil _
  | save | delete | adopt | make | edit | evictStale | clearCache => cases reads

/-- The pools that a call can leave. -/
inductive Effect (t : Transport σ) (s : Session σ) : Call → Pool → Prop
  | moved {c p} (moves : Moves s.pool p) : Effect t s c p
  | saved {h e id} (ok : (Call.save h).Succeeds t s) (live : s.pool.get? h = some e)
      (named : e.id = none ∨ e.id = some id) :
      Effect t s (.save h)
        ((s.pool.update h fun e => { e with id := some id }).settle ⟨e.type, id⟩ h)
  | deleted {h e i} (ok : (Call.delete h).Succeeds t s) (live : s.pool.get? h = some e)
      (named : e.identity = some i) : Effect t s (.delete h) (s.pool.forget i h)
  | evicted {c} : Effect t s (.evictStale c) (s.pool.evict c.stale).2
  | cleared : Effect t s .clearCache s.pool.clear

theorem Effect.unchanged {t : Transport σ} {s : Session σ} {c : Call} {p : Pool}
    (h : p = s.pool) : Effect t s c p := .moved (moves_of_eq h)

section Writing

variable (t : Transport σ) (s : Session σ) (h : Handle)

theorem step_save : step t s (.save h) = (exec (save t h) s).2 :=
  congrArg Prod.snd (exec_map _ (save t h) s)

theorem step_delete : step t s (.delete h) = (exec (delete t h) s).2 :=
  congrArg Prod.snd (exec_map _ (delete t h) s)

theorem save_succeeds (ok : (exec (save t h) s).1 = .ok ()) : (Call.save h).Succeeds t s :=
  ⟨.done, by rw [Call.action, exec_map, ok]; rfl⟩

theorem delete_succeeds (ok : (exec (delete t h) s).1 = .ok ()) : (Call.delete h).Succeeds t s :=
  ⟨.done, by rw [Call.action, exec_map, ok]; rfl⟩

/-- Saving settles the instance under its identity, or changes nothing: then it has failed, or there
was nothing to save. -/
theorem save_pool :
    ((exec (save t h) s).1 = .ok () → s.pool.get? h = none) ∧
        (exec (save t h) s).2.pool = s.pool ∨
      ∃ e id, (exec (save t h) s).1 = .ok () ∧ s.pool.get? h = some e ∧
        (e.id = none ∨ e.id = some id) ∧
        (exec (save t h) s).2.pool =
          (s.pool.update h fun e => { e with id := some id }).settle ⟨e.type, id⟩ h := by
  cases live : s.pool.get? h with
  | none =>
      rw [exec_save_unknown t live]
      exact .inl ⟨fun _ => rfl, rfl⟩
  | some e =>
      cases hr : e.readonly with
      | true =>
          rw [exec_save_readonly t live hr]
          exact .inl ⟨nofun, rfl⟩
      | false =>
          rw [exec_save t live hr]
          split
          next reply remote written =>
            split
            next id stored =>
              have named : e.id = none ∨ e.id = some id :=
                (Entity.storedId_eq_ok_iff.mp stored).elim .inr fun created => .inl created.1
              exact .inr ⟨e, id, rfl, rfl, named, rfl⟩
            next => exact .inl ⟨nofun, rfl⟩
          next => exact .inl ⟨nofun, rfl⟩

theorem delete_pool :
    (exec (delete t h) s).2.pool = s.pool ∨
      ∃ e i, (exec (delete t h) s).1 = .ok () ∧ s.pool.get? h = some e ∧ e.identity = some i ∧
        (exec (delete t h) s).2.pool = s.pool.forget i h := by
  cases live : s.pool.get? h with
  | none =>
      rw [exec_delete_unknown t live]
      exact .inl rfl
  | some e =>
      cases named : e.identity with
      | none =>
          rw [exec_delete_withoutId t live named]
          exact .inl rfl
      | some i =>
          cases hr : e.readonly with
          | true =>
              rw [exec_delete_readonly t live named hr]
              exact .inl rfl
          | false =>
              rw [exec_delete t live named hr]
              obtain ⟨x | body, r⟩ := t.write (.delete i.path) s.remote
              · exact .inl rfl
              · exact .inr ⟨e, i, rfl, rfl, named, rfl⟩

theorem save_effect : Effect t s (.save h) (step t s (.save h)).pool := by
  rw [step_save]
  obtain ⟨-, hpool⟩ | ⟨e, id, ok, live, named, hpool⟩ := save_pool t s h
  · exact .unchanged hpool
  · rw [hpool]
    exact .saved (save_succeeds t s h ok) live named

theorem delete_effect : Effect t s (.delete h) (step t s (.delete h)).pool := by
  rw [step_delete]
  obtain hpool | ⟨e, i, ok, live, named, hpool⟩ := delete_pool t s h
  · exact .unchanged hpool
  · rw [hpool]
    exact .deleted (delete_succeeds t s h ok) live named

end Writing

/-- What a call does to the pool, for every call in every state. -/
theorem step_effect (t : Transport σ) (s : Session σ) (c : Call) :
    Effect t s c (step t s c).pool := by
  cases c with
  | find | list | resolve | loadSchema | currentRevision | changesSince | configure =>
      refine .moved (step_takes t s ?_).moves
      trivial
  | save h => exact save_effect t s h
  | delete h => exact delete_effect t s h
  | adopt e => exact .moved (adopt_moves s.pool e)
  | make e => exact .moved (Move.create s.pool e).moves
  | edit h x => exact .moved (Move.edit s.pool h x).moves
  | evictStale c => exact .evicted
  | clearCache => exact .cleared

/-- Serves one object for everything and accepts every write. -/
def serving (object : Json) : Transport Unit where
  read _ _ s := (.ok object, s)
  write _ s := (.ok "", s)

end Session
end EntityClient
