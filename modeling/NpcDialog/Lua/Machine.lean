import NpcDialog.Lua.Naming
import NpcDialog.Lua.Routine

/-!
# The machine

The state of a running program: its store, its coroutines, and the stack of the
one that runs.  Everything that a call waits for is a frame on a
list, also a protected call and a built-in function that ends with another
call, so a coroutine can be suspended under any of them.  Only a built-in
function that needs the results of a call for its own work keeps the machine
from suspending until it has them.

The notes on the code are looked at only where a fault becomes a value, where a
program asks for its place, and where it asks for its code.

* `Deliver` — where the results of a call go.
* `Frame` — what a call waits for.
* `Thread` — a coroutine that does not run.
* `Disclosures` — what the program was shown of its notes and its memory.
* `Machine` — the whole state.
* `Machine.inUse` — the bytes in use, as the program is told them.
* `Stop` — why a run of the machine ends.
-/

namespace NpcDialog.Lua

open Bytes (ofText)

/-- Where the results of a call go.  Slots are counted from the bottom of the
stack. -/
inductive Deliver where
  /-- To consecutive slots; `none` for the number of values takes all of them. -/
  | slots (start : Nat) (wanted : Option Nat)
  /-- Into a comparison that is expected to come out one way. -/
  | condition (expected : Bool)
  /-- Nowhere. -/
  | discard
  /-- Into a concatenation, as the value of the last two of `count` operands. -/
  | joined (start count : Nat) (target : Nat)
  /-- Nowhere; the instruction is run once more, with the top of the stack as it
  was. -/
  | again (top : Nat)
  /-- To the frame below. -/
  | onward

/-- A call of a function of the program. -/
structure Activation where
  /-- The code. -/
  body : FunctionCode
  /-- The captured variables. -/
  cells : Array Nat
  /-- The slot of the first register. -/
  base : Nat
  /-- The slot in which the call began. -/
  start : Nat
  /-- Number of extra arguments; they lie in front of the function below the
  registers. -/
  extra : Nat
  /-- The next instruction, kept up to date only while another call runs. -/
  pc : Nat
  /-- Where the results go. -/
  deliver : Deliver
  /-- The count of nested calls when this one began. -/
  depth : Nat

/-- A protected call. -/
structure Protection where
  /-- The slot from which on everything belongs to the call. -/
  floor : Nat
  /-- The message handler outside the call. -/
  handler : Option Value
  /-- The count of nested calls when this one began. -/
  depth : Nat
  /-- The fault that was caught, while variables are closed because of it. -/
  caught : Option Value
  /-- Where the results go. -/
  deliver : Deliver

/-- What waits for the results of a call. -/
inductive Frame where
  /-- A function of the program. -/
  | lua (a : Activation)
  /-- A protected call. -/
  | protect (p : Protection)
  /-- A built-in function that returns the results of its last call. -/
  | pass (after : After) (depth : Nat) (deliver : Deliver)
  /-- A built-in function that needs the results. -/
  | boundary

/-- What a coroutine that does not run is up to. -/
inductive ThreadStatus where
  /-- It was never resumed. -/
  | fresh (f : Value)
  /-- It waits for the values of the next resumption. -/
  | suspended (deliver : Deliver)
  /-- It runs, or it waits for another one. -/
  | active
  /-- It has returned. -/
  | finished
  /-- It has failed. -/
  | failed (f : Fault)

/-- Does the coroutine run, or wait for another one? -/
def ThreadStatus.isActive : ThreadStatus → Bool
  | .active => true
  | _ => false

/-- The fault of a coroutine that has failed. -/
def ThreadStatus.fault? : ThreadStatus → Option Fault
  | .failed f => some f
  | _ => none

/-- A coroutine. -/
structure Thread where
  /-- What it is up to. -/
  status : ThreadStatus
  /-- Its stack. -/
  stack : Array Value
  /-- The slot behind the last one in use, where that varies. -/
  top : Nat
  /-- What its calls wait for, the innermost first. -/
  frames : List Frame
  /-- Its variables that are captured and still live on the stack, with their
  cells; higher slots first. -/
  cells : List (Nat × Nat)
  /-- The slots of its variables that are to be closed, higher ones first. -/
  closers : List Nat
  /-- The message handler of its innermost protected call. -/
  handler : Option Value

/-- A coroutine with nothing on its stack. -/
def Thread.empty (status : ThreadStatus) : Thread := ⟨status, #[], 1, [], [], [], none⟩

/-- What the machine does next. -/
inductive Control where
  /-- The next instruction. -/
  | run
  /-- A call of a value, placed in the slots from `start` on; `nested` tells
  that it is none of the program's own calls. -/
  | call (f : Value) (args : Array Value) (start : Nat) (deliver : Deliver) (nested : Bool)
  /-- Results find their place. -/
  | give (vs : Array Value) (deliver : Deliver)
  /-- A fault is raised. -/
  | raise (f : Fault)
  /-- A fault that the message handler has seen looks for a protected call. -/
  | unwind (f : Fault)

/-- The values that the next thing to do holds. -/
def Control.held : Control → Array Value
  | .call f args _ _ _ => args.push f
  | .give vs _ => vs
  | _ => #[]

/-- How often a program was shown something that does not belong to what it
calculates. -/
structure Disclosures where
  /-- Something that the notes on its code tell. -/
  notes : Nat
  /-- The bytes in use. -/
  memory : Nat
  deriving DecidableEq

/-- The state of a running program. -/
structure Machine where
  /-- The heap, with functions and captured variables. -/
  heap : Store
  /-- Bytes that the code takes without its notes. -/
  codeBytes : Nat
  /-- Bytes that the notes on the code take. -/
  noteBytes : Nat
  /-- By how many bytes the sum in the heap is too small, or too great, since it was last
  corrected: the host, too, needs memory for a while. -/
  drift : Int
  /-- The coroutines; what is here about the running one is out of date. -/
  threads : Array Thread
  /-- The coroutines that had a turn, once for each turn, the latest first; a record
  that nothing is decided by. -/
  turns : List Nat
  /-- What the program was shown of its notes and its memory; a record that nothing is
  decided by. -/
  shown : Disclosures
  /-- What the program has done with the process, the latest first; a record that
  nothing is decided by. -/
  deeds : List ProcessUse
  /-- The running coroutine; the main thread is number zero. -/
  current : Nat
  /-- The stack of the running coroutine. -/
  stack : Array Value
  /-- The slot behind the last one in use, where that varies. -/
  top : Nat
  /-- The next instruction of the innermost function of the program. -/
  pc : Nat
  /-- What the calls wait for, the innermost first. -/
  frames : List Frame
  /-- The captured variables on the stack. -/
  cells : List (Nat × Nat)
  /-- The variables on the stack that are to be closed. -/
  closers : List Nat
  /-- The message handler of the innermost protected call. -/
  handler : Option Value
  /-- How many calls are nested that are none of the program's own. -/
  depth : Nat
  /-- How many of them keep the coroutine from being suspended. -/
  held : Nat
  /-- What to do next. -/
  control : Control

/-- Why a run of the machine ends. -/
inductive Stop where
  /-- With results. -/
  | returned (vs : Array Value)
  /-- With the coroutine suspended. -/
  | suspended (vs : Array Value) (deliver : Deliver)
  /-- With a fault. -/
  | failed (f : Fault)

namespace Machine

/-- The number of nested calls that is too many. -/
def depthBound : Nat := 200

/-- The number of nested calls that is too many even for the handling of a
fault. -/
def handlingBound : Nat := 220

/-- The greatest number of slots of a stack. -/
def stackBound : Nat := 1000000

/-- A machine with nothing to do. -/
def idle (heap : Heap) : Machine where
  heap := .ofHeap heap
  codeBytes := 0
  noteBytes := 0
  drift := 0
  threads := #[.empty .active]
  turns := []
  shown := ⟨0, 0⟩
  deeds := []
  current := 0
  stack := #[]
  top := 1
  pc := 0
  frames := []
  cells := []
  closers := []
  handler := none
  depth := 0
  held := 1
  control := .run

/-! ## Places -/

/-- The running instruction, if a function of the program is innermost. -/
def here (m : Machine) : Option Position :=
  match m.frames with
  | .lua a :: _ => some ⟨a.body, m.pc - 1⟩
  | _ => none

/-- The running instruction of the function that is `level` calls up. -/
def placeAt (m : Machine) : Nat → Option Position
  | 0 => none
  | 1 => m.here
  | n + 2 =>
    match m.frames[n + 1]? with
    | some (.lua a) => some ⟨a.body, a.pc - 1⟩
    | _ => none

/-- The machine after more was shown to the program. -/
def disclosing (m : Machine) (d : Disclosures) : Machine :=
  { m with shown := ⟨m.shown.notes + d.notes, m.shown.memory + d.memory⟩ }

/-- The machine after something was shown to the program that the notes may tell. -/
def showing (m : Machine) (told : Bool) : Machine := m.disclosing ⟨told.toNat, 0⟩

/-- The machine after the program was told the bytes in use. -/
def weighing (m : Machine) : Machine := m.disclosing ⟨0, 1⟩

/-- The bytes in use.  Those of the notes and the drift do not count for the limit. -/
def inUse (m : Machine) : Nat := ((m.heap.used + m.noteBytes : Nat) + m.drift).toNat

/-- The machine after some use of the process. -/
def doing (m : Machine) (u : ProcessUse) : Machine := { m with deeds := u :: m.deeds }

/-- The machine with another heap. -/
@[inline] def withHeap (m : Machine) (h : Heap) : Machine := { m with heap := m.heap.withHeap h }

/-- Raises a fault. -/
def raise (m : Machine) (f : Fault) : Machine := { m with control := .raise f }

/-- Raises a message about the running instruction. -/
def raiseText (m : Machine) (text : Bytes) : Machine := m.raise (.message m.here text)

/-- Raises a message about an operand of the running instruction. -/
def raiseOperand (m : Machine) (before : Bytes) (origin : Origin) (behind : Bytes) : Machine :=
  m.raise (.operand m.here before origin behind)

/-- The frames with the next instruction noted in the innermost one. -/
def heldFrames (m : Machine) : List Frame :=
  match m.frames with
  | .lua a :: rest => .lua { a with pc := m.pc } :: rest
  | frames => frames

/-- Goes back to other frames. -/
def withFrames (m : Machine) (frames : List Frame) : Machine :=
  match frames with
  | .lua a :: _ => { m with frames := frames, pc := a.pc }
  | _ => { m with frames := frames }

/-- The slot behind all that the innermost frame uses. -/
def free (m : Machine) : Nat :=
  match m.frames with
  | .lua a :: _ => max m.top (a.base + a.body.registers)
  | _ => m.top

/-! ## The stack -/

/-- The value of a slot. -/
@[inline] def slot (m : Machine) (i : Nat) : Value := m.stack.getD i .nil

/-- The machine with another value in a slot. -/
@[inline] def setSlot (m : Machine) (i : Nat) (v : Value) : Machine :=
  { m with stack := m.stack.setIfInBounds i v }

/-- A stack with at least so many slots. -/
def padded (stack : Array Value) (size : Nat) : Array Value :=
  if size ≤ stack.size then stack
  else
    let room := max size (2 * stack.size)
    stack ++ Array.replicate (room - stack.size) Value.nil

/-- The machine with at least so many slots. -/
@[inline] def withSlots (m : Machine) (size : Nat) : Machine :=
  if size ≤ m.stack.size then m else { m with stack := padded m.stack size }

/-- The machine with values in consecutive slots that are there. -/
def putFrom (m : Machine) (start : Nat) (vs : Array Value) : Machine :=
  { m with
    stack := (vs.foldl (fun (acc : Array Value × Nat) v => (acc.1.setIfInBounds acc.2 v, acc.2 + 1))
      (m.stack, start)).1 }

/-- Clears `n` slots from `start` on. -/
def clearFrom (m : Machine) (start : Nat) : Nat → Machine
  | 0 => m
  | n + 1 => clearFrom (m.setSlot start .nil) (start + 1) n

/-- Copies `n` slots, one after the other. -/
def copySlots (m : Machine) (source target : Nat) : Nat → Machine
  | 0 => m
  | n + 1 => copySlots (m.setSlot target (m.slot source)) (source + 1) (target + 1) n

/-- The values of `n` slots from `start` on. -/
def valuesFrom (m : Machine) (start n : Nat) : Array Value :=
  (Array.range n).map fun i => m.slot (start + i)

/-! ## Captured variables -/

/-- The value of a captured variable. -/
def readCell (m : Machine) (id : Nat) : Value :=
  match m.heap.cells[id]? with
  | some (.closed v) => v
  | some (.live thread i) =>
    if thread == m.current then m.slot i
    else (m.threads[thread]?).elim .nil fun t => t.stack.getD i .nil
  | none => .nil

/-- Changes a captured variable. -/
def writeCell (m : Machine) (id : Nat) (v : Value) : Machine :=
  match m.heap.cells[id]? with
  | some (.closed _) =>
    { m with heap := { m.heap with cells := m.heap.cells.setIfInBounds id (.closed v) } }
  | some (.live thread i) =>
    if thread == m.current then m.setSlot i v
    else
      { m with
        threads := m.threads.modify thread fun t => { t with stack := t.stack.setIfInBounds i v } }
  | none => m

/-- The place of a slot among the captured ones. -/
def cellOf (slot : Nat) : List (Nat × Nat) → Option Nat
  | [] => none
  | (s, id) :: rest => if s == slot then some id else if s < slot then none else cellOf slot rest

/-- The list of captured variables with one more. -/
def insertCell (slot id : Nat) : List (Nat × Nat) → List (Nat × Nat)
  | [] => [(slot, id)]
  | (s, i) :: rest => if slot < s then (s, i) :: insertCell slot id rest else (slot, id) :: (s, i) :: rest

/-- The cell of a variable on the stack, made if it is not captured yet. -/
def capture (m : Machine) (slot : Nat) : Nat × Machine :=
  match cellOf slot m.cells with
  | some id => (id, m)
  | none =>
    let (id, heap) := m.heap.newCell (.live m.current slot)
    (id, { m with heap, cells := insertCell slot id m.cells })

/-- Gives the captured variables from a slot on values of their own. -/
def detachFrom (stack : Array Value) (floor : Nat) :
    List (Nat × Nat) → Array Cell → List (Nat × Nat) × Array Cell
  | [], cells => ([], cells)
  | (s, id) :: rest, cells =>
    if floor ≤ s then detachFrom stack floor rest (cells.setIfInBounds id (.closed (stack.getD s .nil)))
    else ((s, id) :: rest, cells)

/-- Gives the captured variables from a slot on values of their own. -/
@[inline] def closeCells (m : Machine) (floor : Nat) : Machine :=
  match m.cells with
  | [] => m
  | (s, _) :: _ =>
    if s < floor then m
    else
      let (left, cells) := detachFrom m.stack floor m.cells m.heap.cells
      { m with cells := left, heap := { m.heap with cells } }

/-! ## Coroutines -/

/-- Puts the running coroutine aside. -/
def park (m : Machine) (status : ThreadStatus) : Machine :=
  let frames := m.heldFrames
  { m with
    threads := m.threads.setIfInBounds m.current ⟨status, m.stack, m.top, frames, m.cells, m.closers, m.handler⟩
    stack := #[]
    frames := []
    cells := []
    closers := [] }

/-- Makes a coroutine the running one. -/
def unpark (m : Machine) (id : Nat) : Machine :=
  let t := m.threads.getD id (.empty .active)
  { m with
    threads := m.threads.setIfInBounds id (.empty .active)
    current := id, stack := t.stack, top := t.top, cells := t.cells, closers := t.closers
    handler := t.handler }.withFrames t.frames

/-- How a coroutine looks from outside. -/
def liveness (m : Machine) (id : Nat) : Liveness :=
  if id == m.current then .running
  else
    match (m.threads[id]?).map Thread.status with
    | some (.fresh _) | some (.suspended _) => .suspended
    | some .active => .normal
    | _ => .dead

/-- Can the coroutine be suspended where it is? -/
def canSuspend (m : Machine) (id : Nat) : Bool :=
  if id == m.current then m.held == 0 else id != 0

/-! ## Code -/

/-- Bytes that a constant takes. -/
def constCost : Const → Nat
  | .str s => 16 + Heap.stringCost s
  | _ => 16

/-- Bytes that a function's own code takes. -/
def ownCost (f : FunctionCode) : Nat :=
  120 + 5 * f.code.size + f.consts.foldl (fun n k => n + constCost k) 0

mutual

/-- Bytes that code takes. -/
def codeCost : FunctionCode → Nat
  | ⟨params, isVararg, registers, code, consts, captures, notes, children⟩ =>
    ownCost ⟨params, isVararg, registers, code, consts, captures, notes, []⟩ + codeCostAll children

/-- Bytes that several functions take. -/
def codeCostAll : List FunctionCode → Nat
  | [] => 0
  | f :: rest => codeCost f + codeCostAll rest

end

/-- Bytes that a function's own notes take. -/
def ownNotesCost (n : FunctionNotes) : Nat :=
  n.source.elim 0 Heap.stringCost + n.lines.size + n.locals.foldl (fun k l => k + 16 + l.name.size) 0
    + n.captureNames.foldl (fun k name => k + 8 + name.size) 0

mutual

/-- Bytes that the notes on code take. -/
def notesCost : FunctionCode → Nat
  | ⟨_, _, _, _, _, _, notes, children⟩ => ownNotesCost notes + notesCostAll children

/-- Bytes that the notes on several functions take. -/
def notesCostAll : List FunctionCode → Nat
  | [] => 0
  | f :: rest => notesCost f + notesCostAll rest

end

/-- Makes a function of compiled code.  Its first captured variable has a value, the
others have none. -/
def install (m : Machine) (c : Chunk) (first : Value) : Value × Machine :=
  let (f, heap) := m.heap.makeFunction c first
  (f, { m with
    heap := heap.charge (codeCost c), codeBytes := m.codeBytes + codeCost c
    noteBytes := m.noteBytes + notesCost c })

/-- The code of a function of the program. -/
def codeOf (m : Machine) : Value → Option FunctionCode
  | .closure id => (m.heap.closures[id]?).map Closure.code
  | _ => none

end Machine

end NpcDialog.Lua
