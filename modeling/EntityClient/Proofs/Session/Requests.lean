import EntityClient.Proofs.Filter.Quoting
import EntityClient.Proofs.Session.Atomicity
import EntityClient.Proofs.Session.Frame
import EntityClient.Proofs.Text.Numeral

/-!
The requests of a call. Only saving and deleting write, through an instance that is not readonly at
that moment, and a write is sent whatever becomes of the call. The path of an update or a deletion
names one identity.
-/

namespace EntityClient

theorem Identity.toList_path (i : Identity) :
    i.path.toList = '/' :: (i.type.toList ++ '/' :: Nat.toDigits 10 i.id.toNat) := by
  simp [path, name, Text.toList_word]

/-- The digits behind the last slash are the id, so a slash in the type does no harm. -/
theorem Identity.path_injective {i j : Identity} (h : i.path = j.path) : i = j := by
  obtain ⟨type, id⟩ := i
  obtain ⟨type', id'⟩ := j
  have chars := congrArg String.toList h
  rw [toList_path, toList_path] at chars
  have behind := congrArg List.reverse (List.cons.inj chars).2
  simp only [List.reverse_append, List.reverse_cons, List.append_assoc, List.singleton_append]
    at behind
  have digits (n : UInt64) : ∀ c ∈ (Nat.toDigits 10 n.toNat).reverse, c.isDigit = true := by
    intro c hc
    exact Nat.isDigit_of_mem_toDigits (by decide) (by decide) (List.mem_reverse.mp hc)
  have slash (u : List Char) : Filter.Ends Char.isDigit ('/' :: u) := Filter.ends_cons.mpr rfl
  obtain ⟨hid, htype⟩ := Filter.run_cancel (digits id) (digits id') (slash _) (slash _) behind
  have hid' : id = id' := by
    have value := congrArg (fun l => Nat.ofDigitChars 10 l 0) (List.reverse_inj.mp hid)
    simp only [Nat.ofDigitChars_ten_toDigits] at value
    exact UInt64.toNat_inj.mp value
  have htype' : type = type' := by
    have chars := List.reverse_inj.mp (List.cons.inj htype).2
    exact String.toList_inj.mp chars
  rw [hid', htype']

/-- What a request writes. -/
def Request.write? : Request → Option Write
  | .read _ _ => none
  | .write w => some w

/-- An update or a deletion of the entity with this identity. -/
def Write.Targets (w : Write) (i : Identity) : Prop :=
  match w with
  | .put path _ | .delete path => path = i.path
  | .post _ _ => False

theorem Entity.identity_of_targets {e : Entity} {i : Identity} (h : e.saving.Targets i) :
    e.identity = some i := by
  cases hid : e.id with
  | none =>
      rw [saving, hid] at h
      cases h
  | some id =>
      rw [saving, hid] at h
      rw [identity, hid]
      exact congrArg some (Identity.path_injective h)

namespace Session

open EntityClient.Action

variable {σ : Type} {α : Type}

/-- No more happened to the store than that it was asked for something. -/
def Asked (s s' : Session (σ × List Request)) : Prop :=
  ∃ sent, s'.remote.2 = s.remote.2 ++ sent ∧ ∀ w, Request.write w ∉ sent

theorem asked_of_log {s s' : Session (σ × List Request)} (h : s'.remote.2 = s.remote.2) :
    Asked s s' := ⟨[], by simpa using h, fun _ => List.not_mem_nil⟩

instance : Std.Refl (Asked (σ := σ)) := ⟨fun _ => asked_of_log rfl⟩

instance : IsTrans (Session (σ × List Request)) Asked where
  trans s₁ s₂ s₃ := by
    rintro ⟨sent, hlog, asks⟩ ⟨more, hmore, asks'⟩
    refine ⟨sent ++ more, by rw [hmore, hlog, List.append_assoc], fun w hw => ?_⟩
    cases List.mem_append.mp hw with
    | inl h => exact asks w h
    | inr h => exact asks' w h

theorem asked_reading (t : Transport σ) : Reading t.recorded Asked where
  read s path query := ⟨[.read path query], rfl, by simp⟩
  schema s schema _ := asked_of_log rfl
  pool s pool := asked_of_log rfl

/-! Writing -/

section Writing

variable (t : Transport σ) {s : Session (σ × List Request)} {h : Handle} {e : Entity}

theorem save_log (live : s.pool.get? h = some e) (writable : e.readonly = false) :
    (exec (save t.recorded h) s).2.remote.2 = s.remote.2 ++ [.write e.saving] := by
  rw [exec_save _ live writable]
  split
  next written =>
    split <;> exact (congrArg (·.2.2) written).symm
  next written => exact (congrArg (·.2.2) written).symm

theorem delete_log {i : Identity} (live : s.pool.get? h = some e) (named : e.identity = some i)
    (writable : e.readonly = false) :
    (exec (delete t.recorded h) s).2.remote.2 = s.remote.2 ++ [.write (.delete i.path)] := by
  rw [exec_delete _ live named writable]
  split <;> rename_i written <;> exact (congrArg (·.2.2) written).symm

end Writing

/-! What a call owes -/

/-- The log has grown, and these are the writes among the new requests. -/
def Wrote (s s' : Session (σ × List Request)) (writes : List Write) : Prop :=
  ∃ sent, s'.remote.2 = s.remote.2 ++ sent ∧ sent.filterMap Request.write? = writes

section Wrote

variable {s s₁ s' : Session (σ × List Request)} {first later : List Write}

theorem Asked.wrote (asked : Asked s s') : Wrote s s' [] := by
  obtain ⟨sent, hlog, asks⟩ := asked
  refine ⟨sent, hlog, List.filterMap_eq_nil_iff.mpr fun r mem => ?_⟩
  cases r with
  | read path query => rfl
  | write w => exact absurd mem (asks w)

theorem Wrote.trans (h : Wrote s s₁ first) (k : Wrote s₁ s' later) :
    Wrote s s' (first ++ later) := by
  obtain ⟨sent, hlog, rfl⟩ := h
  obtain ⟨more, hmore, rfl⟩ := k
  exact ⟨sent ++ more, by rw [hmore, hlog, List.append_assoc], List.filterMap_append⟩

theorem wrote_of_log {w : Write} (h : s'.remote.2 = s.remote.2 ++ [.write w]) :
    Wrote s s' [w] := ⟨[.write w], h, rfl⟩

end Wrote

/-- The write that a call has to send: of all calls, only saving and deleting an instance that is
not readonly have one, and deleting only if there is an id. -/
def owed (s : Session σ) : Call → Option Write
  | .save h => do
      let e ← s.pool.get? h
      if e.readonly then none else some e.saving
  | .delete h => do
      let e ← s.pool.get? h
      let i ← e.identity
      if e.readonly then none else some (.delete i.path)
  | _ => none

section Step

variable (t : Transport σ) (s : Session (σ × List Request)) (h : Handle)

theorem save_wrote : Wrote s (exec (save t.recorded h) s).2 (owed s (.save h)).toList := by
  cases live : s.pool.get? h with
  | none =>
      rw [exec_save_unknown _ live]
      simpa [owed, live] using (asked_of_log rfl).wrote
  | some e =>
      cases writable : e.readonly with
      | true =>
          rw [exec_save_readonly _ live writable]
          simpa [owed, live, writable] using (asked_of_log rfl).wrote
      | false => simpa [owed, live, writable] using wrote_of_log (save_log t live writable)

theorem delete_wrote : Wrote s (exec (delete t.recorded h) s).2 (owed s (.delete h)).toList := by
  cases live : s.pool.get? h with
  | none =>
      rw [exec_delete_unknown _ live]
      simpa [owed, live] using (asked_of_log rfl).wrote
  | some e =>
      cases named : e.identity with
      | none =>
          rw [exec_delete_withoutId _ live named]
          simpa [owed, live, named] using (asked_of_log rfl).wrote
      | some i =>
          cases writable : e.readonly with
          | true =>
              rw [exec_delete_readonly _ live named writable]
              simpa [owed, live, named, writable] using (asked_of_log rfl).wrote
          | false =>
              simpa [owed, live, named, writable] using
                wrote_of_log (delete_log t live named writable)

/-- Every call sends the write that it has to send, once, and no other. -/
theorem step_wrote (c : Call) : Wrote s (step t.recorded s c) (owed s c).toList := by
  cases c with
  | save h =>
      rw [step_save]
      exact save_wrote t s h
  | delete h =>
      rw [step_delete]
      exact delete_wrote t s h
  | _ => exact ((asked_reading t).step s (by simp) fun _ _ => asked_of_log rfl).wrote

end Step

/-- The writes that a call sends in a state. -/
inductive Writes (s : Session σ) : Call → Write → Prop
  | saved {h e} (live : s.pool.get? h = some e) (writable : e.readonly = false) :
      Writes s (.save h) e.saving
  | deleted {h e i} (live : s.pool.get? h = some e) (named : e.identity = some i)
      (writable : e.readonly = false) : Writes s (.delete h) (.delete i.path)

theorem writes_of_owed {s : Session σ} {c : Call} {w : Write} (h : owed s c = some w) :
    Writes s c w := by
  cases c with
  | save g =>
      obtain ⟨e, live, h⟩ := Option.bind_eq_some_iff.mp h
      split at h
      next => cases h
      next writable =>
        cases h
        exact .saved live (Bool.eq_false_iff.mpr writable)
  | delete g =>
      obtain ⟨e, live, h⟩ := Option.bind_eq_some_iff.mp h
      obtain ⟨i, named, h⟩ := Option.bind_eq_some_iff.mp h
      split at h
      next => cases h
      next writable =>
        cases h
        exact .deleted live named (Bool.eq_false_iff.mpr writable)
  | _ => cases h

/-- The requests of a call follow those before it, and what it writes is told by `Writes`. -/
theorem step_requests (t : Transport σ) (s : Session (σ × List Request)) (c : Call) :
    ∃ sent, (step t.recorded s c).remote.2 = s.remote.2 ++ sent ∧
      ∀ w, Request.write w ∈ sent → Writes s c w := by
  obtain ⟨sent, hlog, written⟩ := step_wrote t s c
  refine ⟨sent, hlog, fun w mem => writes_of_owed ?_⟩
  have mem' : w ∈ sent.filterMap Request.write? := List.mem_filterMap.mpr ⟨_, mem, rfl⟩
  rw [written] at mem'
  exact Option.mem_toList.mp mem'

end Session
end EntityClient
