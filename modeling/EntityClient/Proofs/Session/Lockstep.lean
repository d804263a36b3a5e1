import EntityClient.Proofs.Remote.Perform
import EntityClient.Proofs.Session.Run

/-!
Sessions over two transports, in lockstep. As long as both transports answer the requests of the
first session alike, no action tells them apart: its result is the same, the sessions stay the same
but for the transports' states, and the second transport gets the requests that the first one has
got.
-/

namespace EntityClient

namespace Transport

variable {σ : Type} (t : Transport σ)

theorem answers_append (s : σ) (first more : List Request) :
    t.answers s (first ++ more) = t.answers s first ++ t.answers (t.after s first) more := by
  induction first generalizing s with
  | nil => rfl
  | cons r rest ih => rw [List.cons_append, answers, ih, answers, after_cons, List.cons_append]

@[simp]
theorem length_answers (s : σ) (requests : List Request) :
    (t.answers s requests).length = requests.length := by
  induction requests generalizing s with
  | nil => rfl
  | cons r rest ih => rw [answers, List.length_cons, ih, List.length_cons]

/-- Transports that answer a row of requests alike have done so before the last ones. -/
theorem answers_prefix {τ : Type} {u : Transport τ} {s : σ} {v : τ} {first all : List Request}
    (front : first <+: all) (alike : t.answers s all = u.answers v all) :
    t.answers s first = u.answers v first := by
  obtain ⟨more, rfl⟩ := front
  rw [answers_append, answers_append] at alike
  exact (List.append_inj alike (by simp)).1

end Transport

namespace Session

open EntityClient.Action

variable {σ τ α β : Type}

/-- The sessions are the same apart from the states of their transports. -/
structure Same (s : Session σ) (v : Session τ) : Prop where
  settings : v.settings = s.settings
  pool : v.pool = s.pool
  schema : v.schema = s.schema

variable (t : Transport σ) (u : Transport τ) (s₀ : σ) (v₀ : τ)

/-- The sessions are the same, and both transports have got the requests that the first one has
kept. -/
structure Lockstep (s : Session (σ × List Request)) (v : Session τ) : Prop extends Same s v where
  first : s.remote.1 = t.after s₀ s.remote.2
  second : v.remote = u.after v₀ s.remote.2

/-- Both transports answer the requests of a session alike. -/
def Agree (s : Session (σ × List Request)) : Prop :=
  t.answers s₀ s.remote.2 = u.answers v₀ s.remote.2

/-- No difference shows between the actions as long as the transports agree. -/
structure Mirrors (a : Action (σ × List Request) α) (b : Action τ α) : Prop where
  grows : ∀ s, s.remote.2 <+: (exec a s).2.remote.2
  follows : ∀ s v, Lockstep t u s₀ v₀ s v → Agree t u s₀ v₀ (exec a s).2 →
    (exec a s).1 = (exec b v).1 ∧ Lockstep t u s₀ v₀ (exec a s).2 (exec b v).2

variable {t u s₀ v₀} {a : Action (σ × List Request) α} {b : Action τ α}

/-- Actions that leave the transports alone need to treat the rest of the session alike. -/
theorem mirrors_of_same (ha : ∀ s, (exec a s).2.remote = s.remote)
    (hb : ∀ v, (exec b v).2.remote = v.remote)
    (same : ∀ s v, Same s v → (exec a s).1 = (exec b v).1 ∧ Same (exec a s).2 (exec b v).2) :
    Mirrors t u s₀ v₀ a b where
  grows s := ⟨[], by rw [ha, List.append_nil]⟩
  follows s v lockstep _ := by
    obtain ⟨answer, rest⟩ := same s v lockstep.toSame
    exact ⟨answer, rest, by rw [ha]; exact lockstep.first, by rw [ha, hb]; exact lockstep.second⟩

theorem mirrors_liftM (r : Except Failure α) :
    Mirrors t u s₀ v₀ (liftM r : Action (σ × List Request) α) (liftM r : Action τ α) :=
  mirrors_of_same (fun _ => rfl) (fun _ => rfl) fun _ _ same => ⟨rfl, same⟩

theorem mirrors_pure (x : α) :
    Mirrors t u s₀ v₀ (pure x : Action (σ × List Request) α) (pure x : Action τ α) :=
  mirrors_liftM (.ok x)

theorem mirrors_throw (x : Failure) :
    Mirrors t u s₀ v₀ (throw x : Action (σ × List Request) α) (throw x : Action τ α) :=
  mirrors_liftM (.error x)

/-- What stands behind a failure does not matter. -/
theorem mirrors_throw_bind (x : Failure) (f : β → Action (σ × List Request) α)
    (g : β → Action τ α) : Mirrors t u s₀ v₀ (throw x >>= f) (throw x >>= g) :=
  mirrors_of_same (fun _ => rfl) (fun _ => rfl) fun _ _ same => ⟨rfl, same⟩

theorem mirrors_withPool (f : Pool → α × Pool) :
    Mirrors t u s₀ v₀ (withPool f : Action (σ × List Request) α) (withPool f : Action τ α) := by
  refine mirrors_of_same (fun _ => rfl) (fun _ => rfl) fun s v same => ?_
  have hpool := same.pool
  exact ⟨congrArg (fun p => Except.ok (f p).1) hpool.symm,
    same.settings, congrArg (fun p => (f p).2) hpool, same.schema⟩

theorem Mirrors.bind {f : α → Action (σ × List Request) β} {g : α → Action τ β}
    (hab : Mirrors t u s₀ v₀ a b) (hfg : ∀ x, Mirrors t u s₀ v₀ (f x) (g x)) :
    Mirrors t u s₀ v₀ (a >>= f) (b >>= g) where
  grows s := by
    have first := hab.grows s
    rcases ha : exec a s with ⟨e | x, s₁⟩ <;> rw [ha] at first
    · rwa [exec_bind_of_error ha]
    · rw [exec_bind_of_ok ha]
      exact first.trans ((hfg x).grows s₁)
  follows s v lockstep agree := by
    have first := hab.follows s v lockstep
    rcases ha : exec a s with ⟨e | x, s₁⟩ <;> rw [ha] at first
    · rw [exec_bind_of_error ha] at agree ⊢
      obtain ⟨answer, lockstep₁⟩ := first agree
      rw [exec_bind_of_error (Prod.ext answer.symm rfl)]
      exact ⟨rfl, lockstep₁⟩
    · rw [exec_bind_of_ok ha] at agree ⊢
      obtain ⟨answer, lockstep₁⟩ := first (t.answers_prefix ((hfg x).grows s₁) agree)
      rw [exec_bind_of_ok (Prod.ext answer.symm rfl)]
      exact (hfg x).follows s₁ _ lockstep₁ agree

/-- An action that looks at the session sees the same there. -/
theorem mirrors_get {f : Session (σ × List Request) → Action (σ × List Request) α}
    {g : Session τ → Action τ α} (hfg : ∀ s v, Same s v → Mirrors t u s₀ v₀ (f s) (g v)) :
    Mirrors t u s₀ v₀ (get >>= f) (get >>= g) where
  grows s := by
    rw [exec_bind_of_ok (exec_get s)]
    exact (hfg s ⟨v₀, s.settings, s.pool, s.schema⟩ ⟨rfl, rfl, rfl⟩).grows s
  follows s v lockstep agree := by
    rw [exec_bind_of_ok (exec_get s)] at agree ⊢
    rw [exec_bind_of_ok (exec_get v)]
    exact (hfg s v lockstep.toSame).follows s v lockstep agree

theorem Mirrors.map (hab : Mirrors t u s₀ v₀ a b) (f : α → β) :
    Mirrors t u s₀ v₀ (f <$> a) (f <$> b) := by
  rw [map_eq_pure_bind, map_eq_pure_bind]
  exact hab.bind fun x => mirrors_pure (f x)

theorem mirrors_mapM {f : α → Action (σ × List Request) β} {g : α → Action τ β}
    (hfg : ∀ x, Mirrors t u s₀ v₀ (f x) (g x)) (l : List α) :
    Mirrors t u s₀ v₀ (l.mapM f) (l.mapM g) := by
  induction l with
  | nil => exact mirrors_pure []
  | cons x rest ih =>
      rw [List.mapM_cons, List.mapM_cons]
      exact (hfg x).bind fun y => ih.bind fun ys => mirrors_pure (y :: ys)

/-! Requests -/

/-- One more request: where the transports agree, they have answered it alike. -/
theorem Lockstep.perform {s : Session (σ × List Request)} {v : Session τ}
    (lockstep : Lockstep t u s₀ v₀ s v) {r : Request}
    (alike : t.answers s₀ (s.remote.2 ++ [r]) = u.answers v₀ (s.remote.2 ++ [r])) :
    (t.perform r s.remote.1).1 = (u.perform r v.remote).1 ∧
      (t.perform r s.remote.1).2 = t.after s₀ (s.remote.2 ++ [r]) ∧
      (u.perform r v.remote).2 = u.after v₀ (s.remote.2 ++ [r]) := by
  rw [Transport.answers_append, Transport.answers_append] at alike
  have last := (List.append_inj alike (by simp)).2
  rw [Transport.after_append, Transport.after_append, lockstep.first, lockstep.second]
  exact ⟨(List.cons.inj last).1, rfl, rfl⟩

theorem mirrors_read (path : String) (query : List (String × String)) :
    Mirrors t u s₀ v₀ (read t.recorded path query) (read u path query) where
  grows s := ⟨[.read path query], rfl⟩
  follows s v lockstep agree := by
    obtain ⟨answer, first, second⟩ := lockstep.perform agree
    obtain ⟨same, -, -⟩ := lockstep
    exact ⟨eq_of_map_eq (fun _ _ => Answer.document.inj) answer,
      ⟨same.settings, same.pool, same.schema⟩, first, second⟩

theorem mirrors_write (w : Write) :
    Mirrors t u s₀ v₀ (write t.recorded w) (write u w) where
  grows s := ⟨[.write w], rfl⟩
  follows s v lockstep agree := by
    obtain ⟨answer, first, second⟩ := lockstep.perform agree
    obtain ⟨same, -, -⟩ := lockstep
    exact ⟨eq_of_map_eq (fun _ _ => Answer.text.inj) answer,
      ⟨same.settings, same.pool, same.schema⟩, first, second⟩

/-! Calls -/

theorem mirrors_loadSchema : Mirrors t u s₀ v₀ (loadSchema t.recorded) (loadSchema u) := by
  refine mirrors_get fun s v same => ?_
  rw [same.schema]
  cases s.schema with
  | some schema => exact mirrors_pure schema
  | none =>
      refine (mirrors_read _ _).bind fun raw => (mirrors_liftM _).bind fun schema => ?_
      refine Mirrors.bind ?_ fun _ => mirrors_pure schema
      exact mirrors_of_same (fun _ => rfl) (fun _ => rfl) fun s v same =>
        ⟨rfl, same.settings, same.pool, rfl⟩

theorem mirrors_ensureSchema : Mirrors t u s₀ v₀ (ensureSchema t.recorded) (ensureSchema u) := by
  refine mirrors_get fun s v same => ?_
  rw [same.settings, same.schema]
  split
  · exact mirrors_loadSchema.bind fun _ => mirrors_pure ()
  · exact mirrors_pure ()

theorem mirrors_readEntity (i : Identity) (raw : Json) :
    Mirrors t u s₀ v₀ (readEntity i raw) (readEntity i raw) :=
  mirrors_get fun _ _ same => same.schema ▸ mirrors_liftM _

theorem mirrors_find (i : Identity) : Mirrors t u s₀ v₀ (find t.recorded i) (find u i) := by
  refine mirrors_get fun s v same => ?_
  rw [same.pool]
  cases s.pool.lookup i with
  | some h => exact mirrors_pure h
  | none =>
      refine (mirrors_read _ _).bind fun raw => mirrors_ensureSchema.bind fun _ => ?_
      exact (mirrors_readEntity i raw).bind fun e => mirrors_withPool _

theorem mirrors_listObject (type path : String) (object : Json) :
    Mirrors t u s₀ v₀ (listObject type path object) (listObject type path object) := by
  refine (mirrors_liftM _).bind fun id => (mirrors_readEntity _ object).bind fun e => ?_
  refine mirrors_get fun s v same => ?_
  rw [same.settings]
  exact (mirrors_withPool _).bind fun _ => mirrors_pure id

theorem mirrors_list (type : String) (query : Option Filter.Query) (order : List (String × String))
    (full : Bool) :
    Mirrors t u s₀ v₀ (list t.recorded type query order full) (list u type query order full) := by
  refine (mirrors_liftM _).bind fun orderText => (mirrors_liftM _).bind fun filter => ?_
  refine (mirrors_read _ _).bind fun answer => ?_
  split
  · refine (mirrors_liftM _).bind fun objects => mirrors_ensureSchema.bind fun _ => ?_
    exact (mirrors_mapM (mirrors_listObject type _) objects).bind fun ids => mirrors_pure _
  · exact (mirrors_liftM _).bind fun ids => mirrors_pure _

theorem mirrors_save (h : Handle) : Mirrors t u s₀ v₀ (save t.recorded h) (save u h) := by
  refine mirrors_get fun s v same => ?_
  rw [same.pool]
  cases s.pool.get? h with
  | none => exact mirrors_pure ()
  | some e =>
      simp only
      split
      · exact mirrors_throw_bind _ _ _
      · cases e.id with
        | some id => exact (mirrors_write _).bind fun _ => mirrors_withPool _
        | none =>
            refine (mirrors_write _).bind fun body => (mirrors_liftM _).bind fun id => ?_
            exact mirrors_withPool _

theorem mirrors_delete (h : Handle) : Mirrors t u s₀ v₀ (delete t.recorded h) (delete u h) := by
  refine mirrors_get fun s v same => ?_
  rw [same.pool]
  cases s.pool.get? h with
  | none => exact mirrors_pure ()
  | some e =>
      simp only
      cases e.identity with
      | none => exact mirrors_throw _
      | some i =>
          simp only
          split
          · exact mirrors_throw _
          · exact (mirrors_write _).bind fun _ => mirrors_withPool _

theorem mirrors_action (c : Call) : Mirrors t u s₀ v₀ (c.action t.recorded) (c.action u) := by
  cases c with
  | find i => exact (mirrors_find i).map _
  | list type query order full => exact (mirrors_list type query order full).map _
  | resolve l => exact (mirrors_mapM (fun id => mirrors_find ⟨l.type, id⟩) l.ids).map _
  | save h => exact (mirrors_save h).map _
  | delete h => exact (mirrors_delete h).map _
  | loadSchema => exact mirrors_loadSchema.map _
  | currentRevision => exact ((mirrors_read _ _).bind fun v => mirrors_liftM _).map _
  | changesSince since => exact ((mirrors_read _ _).bind fun v => mirrors_liftM _).map _
  | adopt e => exact (mirrors_withPool (·.adopt e)).map _
  | make e => exact (mirrors_withPool (·.create e)).map _
  | edit h x => exact (mirrors_withPool fun p => ((), p.update h x.apply)).map _
  | evictStale c => exact (mirrors_withPool (·.evict c.stale)).map _
  | clearCache => exact (mirrors_withPool fun p => ((), p.clear)).map _
  | configure settings =>
      refine Mirrors.map ?_ _
      exact mirrors_of_same (fun _ => rfl) (fun _ => rfl) fun s v same =>
        ⟨rfl, rfl, same.pool, same.schema⟩

/-- What the calls of a run answer, one after another. -/
def replies (t : Transport σ) (s : Session σ) : List Call → List (Except Failure Reply)
  | [] => []
  | c :: rest => (exec (c.action t) s).1 :: replies t (step t s c) rest

variable (t u s₀ v₀) in
/-- What one step keeps, a run keeps: the log only grows, and as long as the transports agree all
calls are answered alike. -/
theorem run_lockstep (s : Session (σ × List Request)) (calls : List Call) :
    s.remote.2 <+: (run t.recorded s calls).remote.2 ∧
      ∀ v, Lockstep t u s₀ v₀ s v → Agree t u s₀ v₀ (run t.recorded s calls) →
        replies t.recorded s calls = replies u v calls ∧
          Lockstep t u s₀ v₀ (run t.recorded s calls) (run u v calls) := by
  induction calls generalizing s with
  | nil => exact ⟨List.prefix_refl _, fun v lockstep _ => ⟨rfl, lockstep⟩⟩
  | cons c rest ih =>
      have mirrors : Mirrors t u s₀ v₀ (c.action t.recorded) (c.action u) := mirrors_action c
      obtain ⟨later, follows⟩ := ih (step t.recorded s c)
      refine ⟨(mirrors.grows s).trans later, fun v lockstep agree => ?_⟩
      obtain ⟨answer, next⟩ := mirrors.follows s v lockstep (t.answers_prefix later agree)
      obtain ⟨answers, last⟩ := follows (step u v c) next agree
      refine ⟨?_, last⟩
      rw [replies, replies, answer, answers]

end Session
end EntityClient
