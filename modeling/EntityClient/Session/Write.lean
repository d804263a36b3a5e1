import EntityClient.Session.Basic

/-!
Making and editing instances, and creating, updating and deleting entities in the store. A write
changes the pool only after the store has accepted it, and a created entity takes the id that the
store's answer names.
-/

namespace EntityClient.Session

variable {σ : Type}

/-- An instance of an entity that the caller made, not cached. -/
def make (e : Entity) : Action σ Handle := withPool (·.create e)

/-- The instance of an entity that the caller made. With an id it is the cached one. -/
def adopt (e : Entity) : Action σ Handle := withPool (·.adopt e)

/-- Changes an instance here only. -/
def edit (h : Handle) (f : Entity → Entity) : Action σ Unit := modifyPool (·.update h f)

/-- Forgets which instances are live; the store is not asked. -/
def clearCache : Action σ Unit := modifyPool (·.clear)

/-- The id in the answer to a creation: a numeral between optional quotes and blanks. -/
def createdId (body : String) : Except Failure UInt64 :=
  let quote := fun c => c == '"'
  let inner := Text.dropTail quote ((Text.trim body.toList).dropWhile quote)
  match Text.word? inner with
  | some id => .ok id
  | none => .error (.malformed (.createReply body))

/-- Creates or updates the entity of an instance. -/
def save (t : Transport σ) (h : Handle) : Action σ Unit := do
  match (← get).pool.get? h with
  | none => return
  | some e =>
      if e.readonly then throw (.readonly e.type e.id)
      match e.id with
      | some id =>
          let _ ← write t (.put (Identity.path ⟨e.type, id⟩) e.payload)
          modifyPool (·.settle ⟨e.type, id⟩ h)
      | none =>
          let id ← createdId (← write t (.post ("/" ++ e.type) e.payload))
          modifyPool fun p =>
            (p.update h fun e => { e with id := some id }).settle ⟨e.type, id⟩ h

/-- Deletes the entity of an instance. -/
def delete (t : Transport σ) (h : Handle) : Action σ Unit := do
  match (← get).pool.get? h with
  | none => return
  | some e =>
      match e.identity with
      | none => throw (.withoutId e.type)
      | some i =>
          if e.readonly then throw (.readonly e.type e.id)
          let _ ← write t (.delete i.path)
          modifyPool (·.forget i h)

end EntityClient.Session
