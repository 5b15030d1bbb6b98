import NpcDialog.Dialog.Channel

/-!
# The sink

Through a sink the events of dialogs go into a queue, from which another side takes
them.  The queue is none of the program's own; what it makes of events is known only
by what it answers.  A sink tells those that send nothing of that answer: an event
that the queue does not take leaves a line in the log.

* `Transport` — the queue.
* `Transport.notify` — tells the sink of an event.
* `Transport.deliver` — what becomes of all that an operation tells.
* `Transport.plain` — a queue that is just a list.
-/

namespace NpcDialog

/-- A queue of events with a side that sends and a side that receives. -/
structure Transport where
  /-- What it is like at some time. -/
  State : Type
  /-- A new queue. -/
  fresh : State
  /-- Sends an event.  The answer tells whether the queue has taken it. -/
  send : State → Event → Bool × State
  /-- Takes an event out of the queue, if there is one. -/
  receive : State → Option Event × State
  /-- Takes the receiving side away. -/
  hangUp : State → State

namespace Transport

variable (t : Transport)

/-- Sends an event.  One that is not taken leaves a line in the log. -/
def forward (queue : t.State) (e : Event) : t.State × List LogLine :=
  match t.send queue e with
  | (true, queue) => (queue, [])
  | (false, queue) => (queue, [.eventDropped])

/-- A message is to be shown. -/
def notifyMessage (queue : t.State) (s : SessionId) (e : EntityId) (text : String) :
    t.State × List LogLine :=
  t.forward queue ⟨s, e, .message text⟩

/-- The player may advance. -/
def notifyAdvance (queue : t.State) (s : SessionId) (e : EntityId) : t.State × List LogLine :=
  t.forward queue ⟨s, e, .advance⟩

/-- The dialog closes. -/
def notifyClose (queue : t.State) (s : SessionId) (e : EntityId) : t.State × List LogLine :=
  t.forward queue ⟨s, e, .close⟩

/-- Tells the sink of an event in the way of its kind. -/
def notify (queue : t.State) (e : Event) : t.State × List LogLine :=
  match e.kind with
  | .message text => t.notifyMessage queue e.session e.entity text
  | .advance => t.notifyAdvance queue e.session e.entity
  | .close => t.notifyClose queue e.session e.entity

/-- What becomes of all that an operation tells, in the order in which it is told:
the queue behind it, and the lines in the log. -/
def deliver (queue : t.State) : List Report → t.State × List LogLine
  | [] => (queue, [])
  | .line l :: rs =>
    let (queue, later) := deliver queue rs
    (queue, l :: later)
  | .event e :: rs =>
    let (queue, ls) := t.notify queue e
    let (queue, later) := deliver queue rs
    (queue, ls ++ later)
  | .process _ :: rs => deliver queue rs

end Transport

/-- A queue that is just a list of the events that wait, until there is no receiver. -/
def Transport.plain : Transport where
  State := Option (List Event)
  fresh := some []
  send queue e := (queue.isSome, queue.map (· ++ [e]))
  receive queue := (queue.bind List.head?, queue.map List.tail)
  hangUp _ := none

end NpcDialog
