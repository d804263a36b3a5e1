import EntityClient.Delta

/-!
The live instances and the identity cache. Instances are numbered in the order they come to be,
and a handle is such a number; whoever holds the handle sees every change of the instance. The
cache names at most one instance for each identity.
-/

namespace EntityClient

abbrev Handle := Nat

structure Pool where
  instances : List Entity := []
  cached : SortedMap Identity Handle := .empty
deriving DecidableEq

namespace Pool

def get? (p : Pool) (h : Handle) : Option Entity := p.instances[h]?

/-- Changes one instance; a handle without instance changes nothing. -/
def update (p : Pool) (h : Handle) (f : Entity → Entity) : Pool :=
  { p with instances := p.instances.modify h f }

/-- A new instance, not cached. -/
def create (p : Pool) (e : Entity) : Handle × Pool :=
  (p.instances.length, { p with instances := p.instances ++ [e] })

def lookup (p : Pool) (i : Identity) : Option Handle := p.cached.get? i

def cache (p : Pool) (i : Identity) (h : Handle) : Pool :=
  { p with cached := p.cached.insert i h }

def uncache (p : Pool) (i : Identity) : Pool := { p with cached := p.cached.erase i }

/-- Empties the cache; instances live on. -/
def clear (p : Pool) : Pool := { p with cached := .empty }

/-- A new instance, cached under an identity. -/
def enter (p : Pool) (i : Identity) (e : Entity) : Handle × Pool :=
  let (h, p) := p.create e
  (h, p.cache i h)

/-- Brings a listed entity into the pool. A cached instance is refreshed if `refresh` says so. -/
def list (p : Pool) (refresh : Bool) (i : Identity) (e : Entity) : Pool :=
  match p.lookup i with
  | some h => if refresh then p.update h (·.takeOver e) else p
  | none => (p.enter i e).2

/-- The instance of an entity that the caller made. With an id it is the cached one, which takes
over the entity's state. -/
def adopt (p : Pool) (e : Entity) : Handle × Pool :=
  match e.identity with
  | none => p.create e
  | some i =>
      match p.lookup i with
      | some h => (h, p.update h (·.takeOver e))
      | none => p.enter i e

/-- After a write of the instance `h` with the identity `i`: a cached instance takes over its
state, else it is cached itself. -/
def settle (p : Pool) (i : Identity) (h : Handle) : Pool :=
  match p.lookup i, p.get? h with
  | some h', some e => if h' = h then p else p.update h' (·.takeOver e)
  | some _, none => p
  | none, _ => p.cache i h

def dropId (e : Entity) : Entity := { e with id := none }

/-- After the deletion of the instance `h` with the identity `i`: it is not cached, and neither it
nor the instance that was cached has an id. -/
def forget (p : Pool) (i : Identity) (h : Handle) : Pool :=
  match p.lookup i with
  | some h' => ((p.uncache i).update h' dropId).update h dropId
  | none => p.update h dropId

/-- Drops identities from the cache and counts those that were in it. -/
def evict (p : Pool) : List Identity → Nat × Pool
  | [] => (0, p)
  | i :: rest =>
      match p.lookup i with
      | some _ =>
          let (n, p) := evict (p.uncache i) rest
          (n + 1, p)
      | none => evict p rest

end Pool

/-- The identities that were updated or deleted. -/
def Delta.stale (c : Delta) : List Identity :=
  c.types.entries.flatMap fun (type, changes) =>
    (changes.updated.keys ++ changes.deleted.keys).map fun id => ⟨type, id⟩

end EntityClient
