import EntityClient.Remote.Transport
import EntityClient.Session.Pool

/-!
Sessions with the remote store: the transport's state, the live instances, and the schema once it
has been loaded. An action may fail, and whatever it changed before stays changed.
-/

namespace EntityClient

structure Settings where
  /-- Load the schema before the first entity, so that values get their datatypes. -/
  typed : Bool := false
  /-- Full listings refresh instances that are cached already. -/
  refreshListed : Bool := true
deriving DecidableEq, Repr

structure Session (σ : Type) where
  remote : σ
  settings : Settings := {}
  pool : Pool := {}
  schema : Option Schema := none

/-- A step of a session, with a result or a failure. -/
abbrev Action (σ α : Type) := ExceptT Failure (StateM (Session σ)) α

namespace Session

variable {σ : Type}

def read (t : Transport σ) (path : String) (query : List (String × String)) : Action σ Json :=
  fun s =>
    let (r, remote) := t.read path query s.remote
    (r, { s with remote })

def write (t : Transport σ) (w : Write) : Action σ String :=
  fun s =>
    let (r, remote) := t.write w s.remote
    (r, { s with remote })

def withPool {α : Type} (f : Pool → α × Pool) : Action σ α :=
  fun s =>
    let (a, pool) := f s.pool
    (.ok a, { s with pool })

def modifyPool (f : Pool → Pool) : Action σ Unit := withPool fun p => ((), f p)

/-- The schema, loaded on first use. -/
def loadSchema (t : Transport σ) : Action σ Schema := do
  match (← get).schema with
  | some schema => return schema
  | none =>
      let schema ← Schema.ofJson (← read t "/definition" [("format", "full")])
      modify fun s => { s with schema := some schema }
      return schema

/-- Loads the schema if the settings ask for datatypes. -/
def ensureSchema (t : Transport σ) : Action σ Unit := do
  let s ← get
  if s.settings.typed ∧ s.schema.isNone then
    let _ ← loadSchema t

/-- The entity that an object of the store describes, under the schema loaded by now. -/
def readEntity (i : Identity) (raw : Json) : Action σ Entity := do
  Entity.ofJson i.type i.id raw ((← get).schema.bind (·.get? i.type))

/-- How a session shows itself. -/
def debugText (s : Session σ) : String :=
  let flag := fun b => if b then "true" else "false"
  "EntityManager \x7b config: ManagerConfig \x7b typed_properties: " ++ flag s.settings.typed ++
    ", refresh_on_list: " ++ flag s.settings.refreshListed ++ " \x7d, cached: " ++
    toString s.pool.cached.size ++ ", definition_loaded: " ++ flag s.schema.isSome ++ ", .. \x7d"

end Session
end EntityClient
