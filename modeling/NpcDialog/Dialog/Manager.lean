import NpcDialog.Dialog.Context

/-!
# The manager

The interactions that sessions take part in, one for each session at most.  An
interaction begins when a player talks to an entity, goes on when the player
answers, and is gone as soon as its script is finished.

* `Manager` — the interactions.
* `Manager.start`, `Manager.resume`, `Manager.abandon` — their life.
* `Manager.isActive`, `Manager.entityOf`, `Manager.activeCount` — what can be
  seen of them.
-/

namespace NpcDialog

/-- The interactions of all sessions. -/
structure Manager where
  /-- How contexts are made. -/
  config : Config
  /-- The interactions that are going on, by session. -/
  active : List (SessionId × Context)

namespace Manager

/-- A manager without interactions. -/
def ofConfig (config : Config) : Manager := ⟨config, []⟩

/-- The interaction of a session. -/
def find? (m : Manager) (s : SessionId) : Option Context := m.active.lookup s

/-- The manager without a session's interaction. -/
def erase (m : Manager) (s : SessionId) : Manager :=
  { m with active := m.active.filter fun p => p.1 != s }

/-- The manager with an interaction of a session. -/
def insert (m : Manager) (s : SessionId) (c : Context) : Manager :=
  { m with active := (s, c) :: (m.erase s).active }

/-- Does a session take part in an interaction? -/
def isActive (m : Manager) (s : SessionId) : Bool := (m.find? s).isSome

/-- The entity a session talks to. -/
def entityOf (m : Manager) (s : SessionId) : Option EntityId := (m.find? s).map Context.entity

/-- The number of interactions. -/
def activeCount (m : Manager) : Nat := m.active.length

/-- Begins an interaction between a session and the entity of a script.  The
answer is the state of the script behind its first step, nothing if it has no
code. -/
def start (m : Manager) (session : SessionId) (entity : EntityId) (script : Metadata) :
    Action (Except ExecutionFault (Option TaskState) × Manager) := do
  if m.isActive session then return (.error (.busy session), m)
  else
    match script.code with
    | none => do
      Action.log (.noCode script.name entity)
      return (.ok none, m)
    | some code =>
      match ← Context.create m.config session entity with
      | .error f => return (.error f, m)
      | .ok c =>
        match ← c.run code with
        | (false, c) => do
          Action.log (.couldNotStart script.name entity session)
          c.drop
          return (.error (.load entity), m)
        | (true, c) =>
          if c.isFinished then do
            Action.log (.finishedImmediately session entity)
            c.drop
            return (.ok c.state, m)
          else do
            Action.log (.startedTalking session script.name entity)
            return (.ok c.state, m.insert session c)

/-- Lets a session's interaction go on.  The answer is the state of the script,
nothing if there is no interaction. -/
def resume (m : Manager) (session : SessionId) : Action (Option TaskState × Manager) := do
  match m.find? session with
  | none => return (none, m)
  | some c =>
    let (state, c) ← c.resume
    if c.isFinished then do
      Action.log (.interactionEnded session state)
      c.drop
      return (state, m.erase session)
    else return (state, m.insert session c)

/-- Ends a session's interaction.  The answer tells whether there was one. -/
def abandon (m : Manager) (session : SessionId) : Action (Bool × Manager) := do
  match m.find? session with
  | none => return (false, m)
  | some c => do
    c.drop
    Action.log (.interactionAbandoned session)
    return (true, m.erase session)

/-- Throws all interactions away. -/
def drop (m : Manager) : Action Unit := m.active.forM fun p => p.2.drop

end Manager

end NpcDialog
