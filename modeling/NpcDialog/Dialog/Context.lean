import NpcDialog.Dialog.Host
import NpcDialog.Dialog.Preparation
import NpcDialog.Script.Metadata

/-!
# Contexts

One conversation between a session and an entity, with a machine of its own.
A context runs one script at a time, as a coroutine: it is stepped when it is
started and whenever the player lets it advance, and each step ends with the
script suspended, completed or failed.  When a context is thrown away, its
machine finalizes what the scripts have left behind, and the callbacks are there
until the end.

* `Task` — a script that was started.
* `Context` — a conversation.
* `Context.launch` — the coroutine of a script.
* `Context.create`, `Context.run`, `Context.resume`, `Context.drop` — its life.
-/

namespace NpcDialog

open Lua (Machine Value Fault)

/-- A script that was started. -/
structure Task where
  /-- The coroutine it runs in. -/
  thread : Nat
  /-- How far it has come. -/
  state : TaskState
  /-- How often it was suspended, as far as 32 bits tell. -/
  suspensions : UInt32

/-- A conversation. -/
structure Context where
  /-- Its number. -/
  id : ContextId
  /-- The session that takes part. -/
  session : SessionId
  /-- The entity that takes part. -/
  entity : EntityId
  /-- The script, once one was started. -/
  task : Option Task
  /-- The machine. -/
  machine : Machine
  /-- The conversation as the machine's callbacks know it. -/
  conversation : Conversation

/-- Why an interaction cannot begin. -/
inductive ExecutionFault where
  /-- Its machine cannot be made ready. -/
  | setup (f : Failure)
  /-- The session takes part in another one. -/
  | busy (s : SessionId)
  /-- The code of the entity cannot be loaded. -/
  | load (e : EntityId)
  deriving DecidableEq

/-- The message. -/
def ExecutionFault.text : ExecutionFault → String
  | .setup f => s!"failed to prepare interaction state: {f.text}"
  | .busy s => s!"{s.text} already has an interaction in progress"
  | .load e => s!"bytecode for {e.text} could not be loaded"

/-- Why a script cannot be started. -/
inductive LaunchFault where
  /-- Its code cannot be loaded. -/
  | load (f : Failure)
  /-- A coroutine for it cannot be made. -/
  | task (f : Failure)

/-- The line that the log has about it. -/
def LaunchFault.line (c : ContextId) : LaunchFault → LogLine
  | .load f => .loadFailed c f.text
  | .task f => .taskNotMade c f.text

namespace Context

/-- The state of the script, if one was started. -/
def state (c : Context) : Option TaskState := c.task.map Task.state

/-- Is there no script that could go on? -/
def isFinished (c : Context) : Bool := c.state.all TaskState.isTerminal

/-- How often the script was suspended. -/
def suspensions (c : Context) : Nat := c.task.elim 0 fun t => t.suspensions.toNat

/-- A new context. -/
def create (config : Config) (session : SessionId) (entity : EntityId) :
    Action (Except ExecutionFault Context) := do
  match Machine.prepare config (← Action.files) with
  | .error f => return .error (.setup f)
  | .ok m => do
    let id ← Action.takeId
    let m := m.bindHandles
    if m.isOverfull then return .error (.setup .memory)
    else do
      Action.log (.created id session entity)
      return .ok ⟨id, session, entity, none, m, .between id session entity⟩

/-- What a fault of a script's coroutine says.  A value that is no string is
shown as the program itself would show it. -/
def failureOf (f : Fault) (m : Machine) : Conversing (Failure × Machine) :=
  match f with
  | .memory => return (.memory, m)
  | f =>
    match f.toValue with
    | .str s => return (.ofRaised s, m)
    | v => do
      match ← m.callFrom (.builtin .tostring) #[v] with
      | (.ok vs, m) =>
        match vs.getD 0 .nil with
        | .str s => return (.ofRaised s, m)
        | _ => return (.traced "", m)
      | (.error e, m) => return (e, m)

/-- A coroutine's turn: the state it comes to, and the failure if it comes to
one. -/
def turn (thread : Nat) (m : Machine) : Conversing (TaskState × Option Failure × Machine) := do
  match ← m.resumeThread thread #[] with
  | (.ok _, m) =>
    return (if m.liveness thread == .suspended then .suspended else .completed, none, m)
  | (.error f, m) => do
    let (e, m) ← failureOf f m
    return (.failed, some e, m)

/-- The machine with the files as they are now. -/
def withFiles (m : Machine) (files : FileTree) : Machine := { m with heap := { m.heap with files } }

/-- What the log says of a step. -/
def outcome (c : Context) (state : TaskState) (failure : Option Failure) : List LogLine :=
  failure.toList.map (fun f => .taskFailed c.id f.text) ++ [.taskNow c.id state]

/-- One step of a script. -/
def step (c : Context) (t : Task) : Action Context := do
  match turn t.thread (withFiles c.machine (← Action.files)) c.conversation.quiet with
  | ((state, failure, m), conversation) => do
    Action.setFiles m.heap.files
    Action.tellAll conversation.reports.toList
    Action.tellAll ((c.outcome state failure).map .line)
    let suspensions := if state == .suspended then t.suspensions + 1 else t.suspensions
    return { c with task := some { t with state, suspensions }, machine := m, conversation }

/-- A new coroutine for compiled code.  If there is none then the machine is as it was,
but for traces in its memory. -/
def launch (code : Bytecode) (m : Machine) : Except LaunchFault Nat × Machine :=
  match Lua.Archive.read code.bytes with
  | .error why => (.error (.load (.plain why)), m.littered (Lua.Heap.stringCost code.bytes))
  | .ok chunk =>
    let (f, loaded) := m.loadChunk chunk
    if loaded.isOverfull then (.error (.load .memory), m.squeezed)
    else if (loaded.charged? Machine.threadCost).isNone then (.error (.task .memory), m.squeezed)
    else
      let (thread, begun) := loaded.newThread f
      (.ok thread, begun)

/-- Starts a script, unless another one is still to go on.  The answer tells
whether it was started. -/
def run (c : Context) (code : Bytecode) : Action (Bool × Context) := do
  match c.state.filter (fun s => !s.isTerminal) with
  | some state => do
    Action.log (.startRefused c.id state)
    return (false, c)
  | none =>
    match launch code c.machine with
    | (.error f, m) => do
      Action.log (f.line c.id)
      return (false, { c with machine := m })
    | (.ok thread, m) =>
      return (true, ← step { c with machine := m } ⟨thread, .created, 0⟩)

/-- Lets a suspended script go on.  The answer is the state it comes to. -/
def resume (c : Context) : Action (Option TaskState × Context) := do
  match c.task with
  | none => return (none, c)
  | some t =>
    if t.state == .suspended then do
      let c ← step c t
      return (c.state, c)
    else do
      Action.log (.resumeIgnored c.id t.state)
      return (some t.state, c)

/-- Gives up the machine of a context, which does what is still to be done. -/
def release (c : Context) : Action Unit := do
  match (withFiles c.machine (← Action.files)).release c.conversation.quiet with
  | (m, conversation) => do
    Action.setFiles m.heap.files
    Action.tellAll conversation.reports.toList

/-- Throws a context away. -/
def drop (c : Context) : Action Unit := do
  if c.state == some .suspended then Action.log (.abandoning c.id) else pure ()
  c.release

/-- Lets a script go on while it is suspended, `n` times at most.  The answer
tells how often. -/
def finish : Nat → Context → Action (Nat × Context)
  | 0, c => pure (0, c)
  | n + 1, c =>
    if c.state == some .suspended then do
      let (_, c) ← c.resume
      let (times, c) ← finish n c
      return (times + 1, c)
    else pure (0, c)

end Context

end NpcDialog
