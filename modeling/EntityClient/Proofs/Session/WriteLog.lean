import EntityClient.Proofs.Entity.RoundTrip
import EntityClient.Proofs.Session.Requests
import EntityClient.Session.Collection

/-!
The writes of a run. A call owes the store at most one write, decided by the instance at the moment
of the call, and sends it whatever comes of it. So the writes in the log are what the calls have
owed, one after another: none is lost, none is sent twice, and nothing else writes.
-/

namespace EntityClient

theorem Entity.payload_childless (e : Entity) :
    ∃ members, e.payload = .obj members ∧ "children" ∉ members.map Prod.fst := by
  refine ⟨_, e.payload_eq, fun mem => ?_⟩
  have absent : (SortedMap.ofList e.written).contains "children" = false := by
    rw [SortedMap.contains, SortedMap.get?, e.lookup_children]
    rfl
  rw [SortedMap.mem_keys_iff.mp mem] at absent
  cases absent

namespace Session

open EntityClient.Action

variable {σ : Type}

/-- The writes that a row of calls owes, each in the state in which it is made. -/
def owedAll (t : Transport σ) (s : Session σ) : List Call → List Write
  | [] => []
  | c :: rest => (owed s c).toList ++ owedAll t (step t s c) rest

theorem run_wrote (t : Transport σ) (s : Session (σ × List Request)) (calls : List Call) :
    Wrote s (run t.recorded s calls) (owedAll t.recorded s calls) := by
  induction calls generalizing s with
  | nil => exact (asked_of_log rfl).wrote
  | cons c rest ih => exact (step_wrote t s c).trans (ih (step t.recorded s c))

/-- In every run, over every transport, the writes in the log are those that the calls owe: in
order, one for each save of an instance that is not readonly, and one for each deletion of such an
instance with an id. The calls of a collection write nothing, and children are written by none. -/
theorem run_writes (t : Transport σ) (s : Session (σ × List Request)) (calls : List Call) :
    Wrote s (run t.recorded s calls) (owedAll t.recorded s calls) ∧
      (∀ (r : Collection) (query : Filter.Query) (order : List (String × String)) (full : Bool)
          (id : UInt64), let s := run t.recorded s calls
        Wrote s (exec (r.list t.recorded order full) s).2 [] ∧
          Wrote s (exec (r.listMatching t.recorded query order full) s).2 [] ∧
          Wrote s (exec (r.find t.recorded id) s).2 []) ∧
      ∀ e : Entity, ∃ members, e.payload = .obj members ∧
        "children" ∉ members.map Prod.fst := by
  refine ⟨run_wrote t s calls, fun r query order full id => ?_, Entity.payload_childless⟩
  intro s
  have asked := asked_reading t
  refine ⟨?_, ?_, ?_⟩
  · exact (asked.list s r.type none order full).wrote
  · exact (asked.list s r.type (some query) order full).wrote
  · exact (asked.find s ⟨r.type, id⟩).wrote

end Session
end EntityClient
