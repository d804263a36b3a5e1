import EntityClient.Proofs.Session.IdentityMap
import EntityClient.Proofs.Session.Requests
import EntityClient.Proofs.Text.Numeral

/-!
Saving that succeeds. One write has been sent, and the entity has the identity that it had before or
that the store's reply names. Under that identity one instance is cached, the one that was there
before or else the saved one, and both instances are the same entity. Nothing else changes.
-/

namespace EntityClient

namespace Pool

variable {p : Pool} {i j : Identity} {h g : Handle} {e : Entity}

/-- The instance that was cached stays so, and without one the settled instance is cached. -/
theorem lookup_settle_self (p : Pool) (i : Identity) (h : Handle) :
    (p.settle i h).lookup i = some ((p.lookup i).getD h) := by
  rw [lookup_settle]
  cases cached : p.lookup i <;> simp

theorem Coherent.get?_settle (hp : p.Coherent) (live : p.get? h = some e)
    (named : e.identity = some i) :
    (p.settle i h).get? ((p.lookup i).getD h) = some e := by
  cases cached : p.lookup i with
  | none => exact get?_settle_self live
  | some g =>
      by_cases hg : g = h
      · subst hg
        exact get?_settle_self live
      · obtain ⟨old, hold, -⟩ := hp i g cached
        rw [settle_of_ne cached live hg, Option.getD_some, get?_update_self _ hold,
          Entity.takeOver_of_identity named]

theorem get?_settle_of_ne (live : p.get? h = some e) (other : p.lookup i ≠ some g) :
    (p.settle i h).get? g = p.get? g := by
  cases cached : p.lookup i with
  | none => rw [settle_of_none cached]; rfl
  | some g' =>
      by_cases hg : g' = h
      · rw [settle_of_eq (hg ▸ cached)]
      · have hne : g ≠ g' := fun heq => other (heq ▸ cached)
        rw [settle_of_ne cached live hg, get?_update, if_neg hne]

end Pool

namespace Session

open EntityClient.Action Pool

variable {σ : Type}

/-- The reply to a creation names the id: it is its numeral, between quotes, between blanks. -/
def NamesId (reply : String) (id : UInt64) : Prop :=
  ∃ quoted numeral, Text.Within Text.isBlank reply.toList quoted ∧
    Text.Within (· == '"') quoted numeral ∧ Text.Numeral numeral id

theorem createdId_eq_ok_iff {reply : String} {id : UInt64} :
    createdId reply = .ok id ↔ NamesId reply id := by
  have hword : createdId reply = .ok id ↔
      Text.word? (Text.dropTail (· == '"') ((Text.trim reply.toList).dropWhile (· == '"'))) =
        some id := by
    unfold createdId
    simp only
    split
    next id' hid => rw [hid, Except.ok.injEq, Option.some.injEq]
    next hid => simp [hid]
  rw [hword, Text.word?_eq_some_iff]
  constructor
  · intro numeral
    exact ⟨Text.trim reply.toList, _, Text.within_trimmed _ _, Text.within_trimmed _ _, numeral⟩
  · rintro ⟨quoted, text, blanks, quotes, numeral⟩
    -- neither blanks nor quotes stand in a numeral, so trimming stops there
    have hquoted : ∀ c ∈ quoted, Text.isBlank c = false := by
      obtain ⟨front, back, rfl, sides⟩ := quotes
      intro c hc
      by_cases inner : c ∈ text
      · exact numeral.isBlank c inner
      · have side : c ∈ front ++ back := by simp_all
        rw [beq_iff_eq.mp (sides c side)]
        rfl
    have htext : ∀ c ∈ text, (c == '"') = false := by
      intro c hc
      refine beq_false_of_ne fun quote => ?_
      cases numeral.chars c hc with
      | inl plus => exact absurd (plus.symm.trans quote) (by decide)
      | inr digit => rw [quote] at digit; cases digit
    have trimmed : Text.trim reply.toList = quoted := Text.trimmed_of_within blanks hquoted
    rw [trimmed, Text.trimmed_of_within quotes htext]
    exact numeral

/-- What saving the instance `h`, which was `e`, has done: the entity is stored with the id. -/
structure Saved (t : Transport σ) (h : Handle) (e : Entity) (id : UInt64)
    (s s' : Session (σ × List Request)) : Prop where
  log : s'.remote.2 = s.remote.2 ++ [.write e.saving]
  reply : ∃ reply, (t.write e.saving s.remote.1).1 = .ok reply ∧
    (e.id = some id ∨ e.id = none ∧ NamesId reply id)
  saved : s'.pool.get? h = some { e with id := some id }
  lookup : s'.pool.lookup ⟨e.type, id⟩ = some ((s.pool.lookup ⟨e.type, id⟩).getD h)
  held : s'.pool.held ⟨e.type, id⟩ = some { e with id := some id }
  payload : ({ e with id := some id } : Entity).payload = e.payload
  others : ∀ i, i ≠ ⟨e.type, id⟩ → s'.pool.lookup i = s.pool.lookup i
  spared : ∀ g, g ≠ h → s.pool.lookup ⟨e.type, id⟩ ≠ some g → s'.pool.get? g = s.pool.get? g
  found : exec (find t.recorded ⟨e.type, id⟩) s' =
    (.ok ((s.pool.lookup ⟨e.type, id⟩).getD h), s')

/-- What a save that succeeds has got from the store, and what it has done to the pool. -/
theorem save_succeeded (t : Transport σ) {s s' : Session σ} {h : Handle} {e : Entity}
    (live : s.pool.get? h = some e) (ok : exec (save t h) s = (.ok (), s')) :
    e.readonly = false ∧ ∃ reply id, (t.write e.saving s.remote).1 = .ok reply ∧
      (e.id = some id ∨ e.id = none ∧ createdId reply = .ok id) ∧
      s'.pool = (s.pool.update h fun e => { e with id := some id }).settle ⟨e.type, id⟩ h := by
  cases writable : e.readonly with
  | true =>
      rw [exec_save_readonly t live writable] at ok
      cases ok
  | false =>
      rw [exec_save t live writable] at ok
      split at ok
      next reply remote written =>
        split at ok
        next id stored =>
          cases ok
          refine ⟨rfl, reply, id, congrArg Prod.fst written, ?_, rfl⟩
          exact Entity.storedId_eq_ok_iff.mp stored
        next => cases ok
      next => cases ok

theorem saved_of_coherent (t : Transport σ) {s s' : Session (σ × List Request)} {h : Handle}
    {e : Entity} (coherent : s.pool.Coherent) (live : s.pool.get? h = some e)
    (ok : exec (save t.recorded h) s = (.ok (), s')) : ∃ id, Saved t h e id s s' := by
  obtain ⟨writable, reply, id, written, named, hpool⟩ := save_succeeded t.recorded live ok
  let i : Identity := ⟨e.type, id⟩
  let saved : Entity := { e with id := some id }
  let q := s.pool.update h fun e => { e with id := some id }
  have live' : q.get? h = some saved := get?_update_self _ live
  have coherent' : q.Coherent := coherent.assign live (named.symm.imp And.left fun h => h)
  have hi : s'.pool.lookup i = some ((s.pool.lookup i).getD h) := by
    rw [hpool]
    exact lookup_settle_self q i h
  refine ⟨id, ?_, ?_, ?_, hi, ?_, rfl, ?_, ?_, ?_⟩
  · have sent := save_log t live writable
    rwa [ok] at sent
  · exact ⟨reply, written, named.imp_right (And.imp_right createdId_eq_ok_iff.mp)⟩
  · rw [hpool]
    exact get?_settle_self live'
  · rw [held_of_lookup hi, hpool]
    exact coherent'.get?_settle live' rfl
  · intro j hj
    rw [hpool, lookup_settle, if_neg fun both => hj both.1]
    rfl
  · intro g hg other
    rw [hpool, get?_settle_of_ne live' other, get?_update, if_neg hg]
  · exact exec_find_cached _ hi

/-- A save that succeeds, of any instance in any state of any run over any store: one write was
sent, and the entity is stored with the id that it had, or that the reply names. One instance is
cached under its identity, and nothing else has changed. -/
theorem saved_of_save (t : Transport σ) (remote : σ) (settings : Settings) (calls : List Call)
    {h : Handle} {e : Entity} {s' : Session (σ × List Request)}
    (live : (run t.recorded (start (remote, []) settings) calls).pool.get? h = some e)
    (ok : exec (save t.recorded h) (run t.recorded (start (remote, []) settings) calls) =
      (.ok (), s')) :
    ∃ id, Saved t h e id (run t.recorded (start (remote, []) settings) calls) s' :=
  saved_of_coherent t (run_coherent Coherent.empty calls).1 live ok

/-- Serves any member, and gives every creation the same id. -/
def sameReply : Transport Unit where
  read _ _ s := (.ok (.obj []), s)
  write _ s := (.ok " \"+01\"\n", s)

/-- A new member gets the id of one that was found, which takes over its state. -/
theorem saved_of_save_reply :
    let new : Entity := { kind := .member, parents := [3] }
    let s := run sameReply.recorded (start ((), []) {}) [.find ⟨"member", 1⟩, .make new]
    let s' := (exec (save sameReply.recorded 1) s).2
    exec (save sameReply.recorded 1) s = (.ok (), s') ∧ s.pool.get? 1 = some new ∧
      Saved sameReply 1 new 1 s s' ∧ s'.pool.lookup ⟨"member", 1⟩ = some 0 ∧
      s'.pool.get? 0 = some { new with id := some 1 } := by
  intro new s s'
  have ok : exec (save sameReply.recorded 1) s = (.ok (), s') := rfl
  have live : s.pool.get? 1 = some new := rfl
  obtain ⟨id, stored⟩ := saved_of_save sameReply () {} [.find ⟨"member", 1⟩, .make new] live ok
  have given : s'.pool.get? 1 = some { new with id := some 1 } := by decide +kernel
  have hid : id = 1 := by
    have same : some (some id) = some (some 1) :=
      congrArg (Option.map Entity.id) (stored.saved.symm.trans given)
    exact Option.some.inj (Option.some.inj same)
  subst hid
  have cached : s.pool.lookup ⟨new.type, 1⟩ = some 0 := by decide +kernel
  have now : s'.pool.lookup ⟨new.type, 1⟩ = some 0 := by
    rw [stored.lookup, cached, Option.getD_some]
  exact ⟨ok, live, stored, now, (held_of_lookup now).symm.trans stored.held⟩

end Session
end EntityClient
