import NpcDialog.Lua.Library
import NpcDialog.Lua.Machine.Execute
import NpcDialog.Lua.Machine.Memory

/-!
# Running

The machine's step and its repetition.  A nested run, which a built-in function
asks for, is the same thing one level down; the levels are counted so that
everything ends.

* `Machine.step` — one step.
* `Machine.loop` — steps until the machine stops.
* `Machine.run` — a run with all levels below it.
* `Machine.callMain`, `Machine.performMain` — a call from outside.
* `Machine.release` — the end of a machine.
* `Machine.resumeThread` — a coroutine's turn, from outside.
-/

namespace NpcDialog.Lua

open Bytes (ofText)

/-- What a step leads to. -/
inductive Step where
  /-- To the next step. -/
  | next (m : Machine)
  /-- To the end of the run. -/
  | stop (s : Stop) (m : Machine)

/-- The results that count. -/
def After.select (vs : Array Value) : After → Array Value
  | .all => vs
  | .firstThree => #[vs.getD 0 .nil, vs.getD 1 .nil, vs.getD 2 .nil]

namespace Machine

/-- Why a coroutine cannot be suspended. -/
def heldText (m : Machine) : Bytes :=
  ofText (if m.current == 0 then "attempt to yield from outside a coroutine"
    else "attempt to yield across a C-call boundary")

/-- Goes on after the routine of a built-in function that was called in slot
`start` and whose results go to `deliver`. -/
def concluded (m : Machine) (o : Outcome) (start : Nat) (deliver : Deliver) (depth : Nat) : Step :=
  match o with
  | .ended (.results vs) => .next { m with depth, control := .give vs deliver }
  | .ended (.call f args after) =>
    .next { m with
      frames := .pass after depth deliver :: m.heldFrames
      control := .call f args (start + 1) .onward true }
  | .ended (.protect f args handler) =>
    .next { m with
      frames := .protect ⟨start + 1, m.handler, depth, none, deliver⟩ :: m.heldFrames
      handler
      control := .call f args (start + 1) .onward true }
  | .ended (.suspend vs) =>
    if m.held == 0 then .stop (.suspended vs deliver) { m with depth }
    else .next (m.raise (.located none m.heldText))
  | .raised f => .next (m.raise f)
  | .passedOn f => .next { m with control := .unwind f }

/-- Calls a value. -/
def begin (run : Runner) (m : Machine) (f : Value) (args : Array Value) (start : Nat)
    (deliver : Deliver) (nested : Bool) : Conversing Step :=
  let depth := m.depth
  if nested && depth + 1 == depthBound then
    return .next ({ m with depth := depth + 1 }.raiseText (ofText "C stack overflow"))
  else if nested && handlingBound ≤ depth + 1 then
    return .next ({ m with depth := depth + 1 }.raise .handling)
  else
    let inner := if nested then depth + 1 else depth
    match f with
    | .closure id =>
      let m := { m with depth := inner }
      if stackBound < start + args.size + 1 then return .next (m.raiseText (ofText "stack overflow"))
      else
        let m := ((m.withSlots (start + args.size + 1)).setSlot start f).putFrom (start + 1) args
        return .next (m.enter id start args.size deliver m.heldFrames depth)
    | .builtin b => do
      let (o, m) ← perform run f start (b.routine none args) { m with depth := inner, control := .run }
      return m.concluded o start deliver depth
    | .bound id =>
      match m.heap.bounds[id]? with
      | none => return .next (m.raise .exhausted)
      | some b => do
        let (o, m) ← perform run f start (b.builtin.routine (some (id, b.values)) args)
          { m with depth := inner, control := .run }
        return m.concluded o start deliver depth
    | _ =>
      let handler := m.heap.metamethod f "__call"
      if handler.isNil then return .next (m.raise (.call m.here (m.heap.typeName f) .elsewhere))
      else if stackBound < start + args.size then
        return .next (m.raiseText (ofText "stack overflow"))
      else return .next { m with control := .call handler (#[f] ++ args) start deliver nested }

/-- The end of a protected call that caught nothing, or has closed everything
because of what it caught. -/
def leaveProtected (m : Machine) (p : Protection) (rest : List Frame) (vs : Array Value) : Machine :=
  { m.withFrames rest with handler := p.handler, depth := p.depth, control := .give vs p.deliver }

/-- Gives results to the innermost frame. -/
def giveOnward (m : Machine) (vs : Array Value) : Step :=
  match m.frames with
  | .protect p :: rest =>
    match p.caught with
    | none => .next (m.leaveProtected p rest (#[.bool true] ++ vs))
    | some fault =>
      match m.closers with
      | s :: others =>
        if p.floor ≤ s then
          let v := m.slot s
          let handler := m.heap.metamethod v "__close"
          .next { m with closers := others, control := .call handler #[v, fault] (s + 2) .onward true }
        else .next (m.leaveProtected p rest #[.bool false, fault])
      | [] => .next (m.leaveProtected p rest #[.bool false, fault])
  | .pass after depth deliver :: rest =>
    .next { m.withFrames rest with depth, control := .give (after.select vs) deliver }
  | _ => .stop (.returned vs) m

/-- Lets results find their place. -/
def give (m : Machine) (vs : Array Value) (deliver : Deliver) : Step :=
  let m := { m with control := .run }
  match deliver with
  | .slots start wanted =>
    let n := wanted.getD vs.size
    let m := m.withSlots (start + n)
    let m := m.putFrom start (if vs.size ≤ n then vs else vs.extract 0 n)
    let m := m.clearFrom (start + vs.size) (n - vs.size)
    match wanted with
    | none => .next { m with top := start + n }
    | some _ => .next m
  | .condition expected => .next (m.decideOn (vs.getD 0 .nil).isTrue expected)
  | .discard => .next m
  | .joined start count target =>
    .next ((m.setSlot (start + count - 2) (vs.getD 0 .nil)).concatenate target start (count - 1) count)
  | .again top => .next { m with pc := m.pc - 1, top }
  | .onward => m.giveOnward vs

/-- Lets the message handler see a fault. -/
def handle (run : Runner) (m : Machine) (f : Fault) : Conversing Step :=
  match f, m.handler with
  | .memory, _ | .handling, _ | .exhausted, _ | _, none => return .next { m with control := .unwind f }
  | _, some handler => do
    match ← nestedCall run (m.free + 1) handler #[f.toValue] (m.showing f.isPlaced) with
    | (.ok vs, m) => return .next { m with control := .unwind (.value (vs.getD 0 .nil)) }
    | (.error f, m) => return .next { m with control := .unwind f }

/-- The innermost protected call and the frames below it. -/
def protectionOf : List Frame → Option (Protection × List Frame)
  | [] => none
  | .boundary :: _ => none
  | .protect p :: rest => some (p, rest)
  | _ :: rest => protectionOf rest

/-- Takes a fault to the innermost protected call. -/
def unwind (m : Machine) (f : Fault) : Step :=
  match f, protectionOf m.frames with
  | .exhausted, _ => .stop (.failed f) m
  | _, none => .stop (.failed f) m
  | _, some (p, rest) =>
    let fault := f.toValue
    let m := (m.showing f.isPlaced).closeCells p.floor
    .next { m with
      frames := .protect { p with caught := some fault } :: rest
      top := p.floor
      control := .give #[] .onward }

/-- Counts the memory in use anew, and goes on if there is enough.  What could
not be had is not in use after the failure. -/
def checked (m : Machine) : Machine :=
  let m := m.collected
  if m.heap.used ≤ m.heap.limit then m
  else { m with heap := { m.heap with used := m.heap.limit } }.raise .memory

/-- The next instruction, unless the memory in use is to be counted first. -/
def advance (m : Machine) : Step :=
  if m.heap.limit != 0 && m.heap.limit < m.heap.used then .next m.checked
  else
    match m.frames with
    | .lua a :: _ =>
      match a.body.code[m.pc]? with
      | some i => .next ({ m with pc := m.pc + 1 }.execute a i)
      | none => .stop (.failed .exhausted) m
    | _ => .stop (.failed .exhausted) m

/-- One step. -/
def step (run : Runner) (m : Machine) : Conversing Step :=
  match m.control with
  | .run => return m.advance
  | .call f args start deliver nested => begin run { m with control := .run } f args start deliver nested
  | .give vs deliver => return m.give vs deliver
  | .raise f => handle run { m with control := .run } f
  | .unwind f => return m.unwind f

/-- Steps until the machine stops, `n` of them at most. -/
def loop (run : Runner) : Nat → Machine → Conversing (Stop × Machine)
  | 0, m => return (.failed .exhausted, m)
  | n + 1, m => do
    match ← m.step run with
    | .next m => loop run n m
    | .stop s m => return (s, m)

/-- The number of steps after which a run is given up. -/
def stepBudget : Nat := 1000000000000

/-- A run with so many levels of nested runs below it. -/
def runWithin : Nat → Runner
  | 0, m => return (.failed .handling, m)
  | n + 1, m => loop (runWithin n) stepBudget m

/-- The number of levels of nested runs. -/
def levels : Nat := 230

/-- A run of the machine. -/
def run : Runner := runWithin levels

/-- The main thread with nothing to do. -/
def rested (m : Machine) : Machine :=
  { m with frames := [], top := 1, depth := 1, held := 1, handler := none, control := .run }

/-- The main thread, ready to show faults as texts. -/
def guarded (m : Machine) : Machine := { m.rested with handler := some (.builtin .tostring) }

/-- Closes everything that a failed call from outside left open.  The answer is
the fault that is left. -/
def abandonCall (f : Fault) (m : Machine) : Conversing (Fault × Machine) :=
  let m := m.guarded.closeCells 0
  if m.closers.isEmpty then return (f, m.rested)
  else do
    let v := f.toValue
    let (left, m) ← closeAll run 0 m.closers.length (some v) (m.showing f.isPlaced)
    return (.value (left.getD v), m.rested)

/-- Calls a function from outside, on the main thread.  A fault comes back as a
text. -/
def callMain (f : Value) (args : Array Value) (m : Machine) :
    Conversing (Except Fault (Array Value) × Machine) := do
  match ← run { m.guarded with control := .call f args 1 .onward false } with
  | (.returned vs, m) => return (.ok vs, m.rested)
  | (.suspended _ _, m) => return (.error .exhausted, m.rested)
  | (.failed f, m) => do
    let (f, m) ← m.abandonCall f
    return (.error f, m)

/-- Performs a construction that returns a value from outside, on the main
thread. -/
def performMain (p : Proc Value) (m : Machine) : Conversing (Except Fault Value × Machine) := do
  match ← perform run .nil 1 (p fun v => .done (.results #[v])) m.guarded with
  | (.ended (.results vs), m) => return (.ok (vs.getD 0 .nil), m.rested)
  | (.ended _, m) => return (.error .exhausted, m.rested)
  | (.raised f, m) | (.passedOn f, m) => do
    let (f, m) ← m.abandonCall f
    return (.error f, m)

/-- Gives a machine up: collects what nothing reaches, and finalizes all the rest. -/
def release (m : Machine) : Conversing Machine := do
  let m ← collect run 1 m.rested
  finalizeAll run 1 m.heap.marked (m.withHeap { m.heap.toHeap with finalizing := true })

/-- Resumes a coroutine from outside. -/
def resumeThread (id : Nat) (args : Array Value) (m : Machine) :
    Conversing (Except Fault (Array Value) × Machine) :=
  resume run id args { m.rested with depth := 0 }

end Machine

end NpcDialog.Lua
