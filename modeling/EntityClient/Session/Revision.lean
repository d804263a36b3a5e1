import EntityClient.Session.Basic

/-!
Revisions of the store: the latest one, the changes since one, and dropping what they made stale.
-/

namespace EntityClient.Session

variable {σ : Type}

def revisionOf (v : Json) : Except Failure UInt64 :=
  match v.get? "revision" with
  | some revision => readId revision
  | none => .error (.malformed .noRevision)

def currentRevision (t : Transport σ) : Action σ UInt64 := do
  revisionOf (← read t "/replicate" [])

/-- The changes since a revision. Nothing is evicted yet. -/
def changesSince (t : Transport σ) (since : UInt64) : Action σ Delta := do
  Delta.ofJson since (← read t ("/replicate/" ++ toString since) [])

/-- Evicts what was updated or deleted, and counts it. -/
def evictStale (c : Delta) : Action σ Nat := withPool (·.evict c.stale)

end EntityClient.Session
