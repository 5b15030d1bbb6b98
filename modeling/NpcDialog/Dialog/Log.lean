import NpcDialog.Dialog.Event

/-!
# The log

What the host writes into its log, line by line, and the reports in which log
lines and events stand in the order in which they came about, with what scripts
do with the process besides.

* `TaskState` — how far a script has come.
* `LogLine` — a line, with `LogLine.level` and `LogLine.message`.
* `Report` — a line, an event, or a use of the process.
-/

namespace NpcDialog

/-- How far a script has come. -/
inductive TaskState where
  /-- It is loaded and was never resumed. -/
  | created
  /-- It runs. -/
  | running
  /-- It waits for the player. -/
  | suspended
  /-- It has returned. -/
  | completed
  /-- It has failed. -/
  | failed
  deriving DecidableEq

/-- The states, in the order of a script's life. -/
def TaskState.all : List TaskState := [.created, .running, .suspended, .completed, .failed]

/-- Can the script make no further progress? -/
def TaskState.isTerminal : TaskState → Bool
  | .completed | .failed => true
  | _ => false

/-- The name of a state. -/
def TaskState.text : TaskState → String
  | .created => "Created"
  | .running => "Running"
  | .suspended => "Suspended"
  | .completed => "Completed"
  | .failed => "Failed"

/-- A state that may be absent, as messages show it. -/
def TaskState.textOf : Option TaskState → String
  | some s => s!"Some({s.text})"
  | none => "None"

/-- How important a line is. -/
inductive LogLevel where
  /-- For those who look for errors. -/
  | debug
  /-- For everybody. -/
  | info
  /-- Something is wrong. -/
  | warn
  deriving DecidableEq

/-- The name of a level. -/
def LogLevel.text : LogLevel → String
  | .debug => "DEBUG"
  | .info => "INFO"
  | .warn => "WARN"

/-- A line of the log. -/
inductive LogLine where
  /-- A script is about to be looked at. -/
  | extracting (path : String)
  /-- A script has no entry function. -/
  | noEntry (path : String)
  /-- The entry function is none of the script's own. -/
  | notDumped (path : String)
  /-- The entry function was compiled to so many bytes. -/
  | dumped (size : Nat) (path : String)
  /-- A script was looked at. -/
  | extracted (name : String) (sprite : Int) (map : String) (x y : Int) (path : String)
  /-- A config was read from a file. -/
  | configLoaded (path : String)
  /-- A context was made. -/
  | created (context : ContextId) (session : SessionId) (entity : EntityId)
  /-- A callback was called. -/
  | called (callback : Callback) (entity : EntityId) (session : SessionId) (context : Option ContextId)
  /-- A callback was called without the handles in place. -/
  | noContext (callback : Callback)
  /-- A message was asked for without a text. -/
  | noParameters (callback : Callback)
  /-- A message was asked for with something that is no text. -/
  | notText (callback : Callback)
  /-- A script failed. -/
  | taskFailed (context : ContextId) (reason : String)
  /-- A script has come to a state. -/
  | taskNow (context : ContextId) (state : TaskState)
  /-- A script that does not wait was to be resumed. -/
  | resumeIgnored (context : ContextId) (state : TaskState)
  /-- A second script was to be run. -/
  | startRefused (context : ContextId) (state : TaskState)
  /-- Code could not be loaded. -/
  | loadFailed (context : ContextId) (reason : String)
  /-- A coroutine for a script could not be made. -/
  | taskNotMade (context : ContextId) (reason : String)
  /-- A context is dropped while its script waits. -/
  | abandoning (context : ContextId)
  /-- An entity has nothing to say. -/
  | noCode (name : String) (entity : EntityId)
  /-- A script could not be started. -/
  | couldNotStart (name : String) (entity : EntityId) (session : SessionId)
  /-- An interaction was over at once. -/
  | finishedImmediately (session : SessionId) (entity : EntityId)
  /-- An interaction has begun. -/
  | startedTalking (session : SessionId) (name : String) (entity : EntityId)
  /-- An interaction has ended. -/
  | interactionEnded (session : SessionId) (state : Option TaskState)
  /-- An interaction was abandoned. -/
  | interactionAbandoned (session : SessionId)
  /-- Nobody receives events any more. -/
  | eventDropped

namespace LogLine

/-- The level of a line. -/
def level : LogLine → LogLevel
  | .notDumped _ | .noContext _ | .noParameters _ | .notText _ | .taskFailed _ _ | .resumeIgnored _ _
  | .startRefused _ _ | .loadFailed _ _ | .taskNotMade _ _ | .couldNotStart _ _ _ => .warn
  | .extracted _ _ _ _ _ _ | .configLoaded _ | .startedTalking _ _ _ => .info
  | _ => .debug

/-- The text of a line; `size` writes the size of compiled code. -/
def message (size : Nat → String) : LogLine → String
  | .extracting path => s!"Extracting metadata from {path}"
  | .noEntry path => s!"{path} defines no entry function"
  | .notDumped path =>
    s!"script in {path} could not be dumped, treating the script as having no code"
  | .dumped n path => s!"Dumped {size n} bytes of bytecode from {path}"
  | .extracted name sprite map x y path =>
    s!"Extracted {name} ({sprite}) at {map} {x},{y} from {path}"
  | .configLoaded path => s!"Loaded scripting config from {path}"
  | .created c s e => s!"Created context {c.text} for {s.text} and {e.text}"
  | .called callback e s c =>
    let context := match c with
      | some c => s!"Some({c.text})"
      | none => "None"
    s!"[{callback.name}] {e.text} -> {s.text} (context {context})"
  | .noContext c => s!"[{c.name}]: Trying to call with no proper context"
  | .noParameters c => s!"[{c.name}]: Trying to call with no parameters"
  | .notText c => s!"[{c.name}]: First parameter must be a string"
  | .taskFailed c reason => s!"Script task in context {c.text} failed: {reason}"
  | .taskNow c state => s!"Context {c.text} task is now {state.text}"
  | .resumeIgnored c state => s!"Ignoring resume of {state.text} task in context {c.text}"
  | .startRefused c state =>
    s!"Context {c.text} already has a {state.text} task, refusing to start another"
  | .loadFailed c reason => s!"Context {c.text} failed to load bytecode: {reason}"
  | .taskNotMade c reason => s!"Context {c.text} failed to create task: {reason}"
  | .abandoning c => s!"Abandoning suspended task in context {c.text}"
  | .noCode name e => s!"{name} ({e.text}) has no code to run"
  | .couldNotStart name e s => s!"Could not start {name} ({e.text}) for {s.text}"
  | .finishedImmediately s e => s!"Interaction of {s.text} with {e.text} finished immediately"
  | .startedTalking s name e => s!"{s.text} started talking to {name} ({e.text})"
  | .interactionEnded s state => s!"Interaction of {s.text} ended as {TaskState.textOf state}"
  | .interactionAbandoned s => s!"Abandoned interaction of {s.text}"
  | .eventDropped => "Dialog event dropped, receiver is gone"

end LogLine

/-- Something that an operation of the host tells. -/
inductive Report where
  /-- A line of the log. -/
  | line (l : LogLine)
  /-- An event. -/
  | event (e : Event)
  /-- A script has made some use of the process. -/
  | process (u : ProcessUse)

/-- The events among reports. -/
def Report.events (rs : List Report) : List Event :=
  rs.filterMap fun r => match r with
    | .event e => some e
    | _ => none

/-- The lines among reports. -/
def Report.lines (rs : List Report) : List LogLine :=
  rs.filterMap fun r => match r with
    | .line l => some l
    | _ => none

end NpcDialog
