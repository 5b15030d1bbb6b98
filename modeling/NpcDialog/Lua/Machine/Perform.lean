import NpcDialog.Lua.Machine.Callbacks
import NpcDialog.Lua.Machine.Memory

/-!
# Performing routines

How the machine answers the steps of a built-in function.  A call in the middle
of a routine is a run of the machine of its own, above a boundary on the list of
frames; `Runner` is such a run, so that routines can be performed before it is
known how instructions are.

* `Machine.nestedCall` — a call whose results the caller needs.
* `Machine.finalizeAll`, `Machine.collect` — the ends of tables.
* `Machine.entered`, `Machine.handBack`, `Machine.resume` — a coroutine's turn.
* `Machine.closeThread` — the end of a coroutine that will not be resumed.
* `perform` — a whole routine.
-/

namespace NpcDialog.Lua

open Bytes (ofText)

/-- A run of the machine, in a conversation, until it stops. -/
abbrev Runner := Machine → Conversing (Stop × Machine)

/-- How a routine ends. -/
inductive Outcome where
  /-- As it says itself. -/
  | ended (e : Ending)
  /-- With a fault of its own. -/
  | raised (f : Fault)
  /-- With the fault of a call it made. -/
  | passedOn (f : Fault)

/-! ## Names of built-in functions -/

/-- The name of a function among the fields of a table. -/
def nameIn (h : Heap) (table : Nat) (f : Value) : Option Bytes :=
  let t := h.tableAt table
  t.nodes.findSome? fun n =>
    match n.key with
    | .str s => if Value.same n.value f then some s else none
    | _ => none

/-- The name under which a function is found among the loaded libraries. -/
def Heap.globalName (h : Heap) (f : Value) : Option Bytes :=
  let libraries := (h.tableAt h.loaded).nodes.filterMap fun n =>
    match n.key, n.value with
    | .str s, .table id => some (s, id)
    | _, _ => none
  let search (g : Bool) : Option Bytes := libraries.findSome? fun (s, id) =>
    if (s == ofText "_G") == g then
      (nameIn h id f).map fun name => if g then name else s ++ ofText "." ++ name
    else none
  (search false).orElse fun _ => search true

namespace Machine

/-- The fault that a built-in function's fault is where it was called. -/
def placed (m : Machine) (callee : Value) : LibFault → Fault
  | .value v => .value v
  | .message level text => .located (m.placeAt level) text
  | .argument number extra => .argument m.here (m.heap.globalName callee) number extra
  | .memory => .memory
  | .nesting => .nesting
  | .exhausted => .exhausted

/-- A call whose results the caller needs, placed in the slots from `start`
on. -/
def nestedCall (run : Runner) (start : Nat) (f : Value) (args : Array Value) (m : Machine) :
    Conversing (Except Fault (Array Value) × Machine) := do
  let frames := m.heldFrames
  let pc := m.pc
  let top := m.top
  let depth := m.depth
  let held := m.held
  let handler := m.handler
  match ← run { m with
    frames := .boundary :: frames, held := held + 1, control := .call f args start .onward true } with
  | (.returned vs, m) =>
    return (.ok vs, { m with frames, pc, top, depth, held, handler, control := .run })
  | (.suspended _ _, m) =>
    return (.error .exhausted, { m with frames, pc, top, depth, held, handler, control := .run })
  | (.failed e, m) =>
    return (.error e, { m with frames, pc, top, depth, held, handler, control := .run })

/-- Closes the variables that are to be closed from a slot on, because of a
fault if there is one.  The answer is the fault that is left.  The first
argument bounds the variables. -/
def closeAll (run : Runner) (floor : Nat) :
    Nat → Option Value → Machine → Conversing (Option Value × Machine)
  | 0, fault, m => return (fault, m)
  | n + 1, fault, m =>
    match m.closers with
    | s :: rest =>
      if floor ≤ s then do
        let v := m.slot s
        let handler := m.heap.metamethod v "__close"
        let m := { m with closers := rest }
        match ← nestedCall run (s + 2) handler #[v, fault.getD .nil] m with
        | (.ok _, m) => closeAll run floor n fault m
        | (.error e, m) => closeAll run floor n (some e.toValue) (m.showing e.isPlaced)
      else return (fault, m)
    | [] => return (fault, m)

/-- A call whose results the caller needs, and whose faults too. -/
def attemptCall (run : Runner) (start : Nat) (f : Value) (args : Array Value) (m : Machine) :
    Conversing (Except Value (Array Value) × Machine) := do
  match ← nestedCall run start f args m with
  | (.ok vs, m) => return (.ok vs, m)
  | (.error e, m) => do
    let v := e.toValue
    let m := (m.showing e.isPlaced).closeCells start
    let (left, m) ← closeAll run start m.closers.length (some v) m
    return (.error (left.getD v), m)

/-- Finalizes a table, if its metatable still tells how.  Nobody learns of a fault. -/
def finalize (run : Runner) (start id : Nat) (m : Machine) : Conversing Machine := do
  let finalizer := m.heap.metamethod (.table id) "__gc"
  if finalizer.isNil then return m
  else do
    let handler := m.handler
    let (_, m) ← attemptCall run start finalizer #[.table id] { m with handler := none }
    return { m with handler }

/-- Finalizes tables, one after the other. -/
def finalizeAll (run : Runner) (start : Nat) : List Nat → Machine → Conversing Machine
  | [], m => return m
  | id :: ids, m => do finalizeAll run start ids (← finalize run start id m)

/-- Collects what nothing reaches, while the running coroutine uses so many slots: the tables
among it are finalized, if they are marked, and the bytes in use are counted anew. -/
def collect (run : Runner) (slots : Nat) (m : Machine) : Conversing Machine := do
  let (due, heap) := m.swept slots
  let m ← finalizeAll run slots due (m.withHeap { heap with finalizing := true })
  return (m.withHeap { m.heap.toHeap with finalizing := false }).collected

/-- The machine in which a coroutine has its turn, given some values, if it can be
resumed at all. -/
def entered (m : Machine) (id : Nat) (args : Array Value) : Except Fault Machine :=
  let refused (text : String) : Except Fault Machine := .error (.value (.ofText text))
  let turn (control : Control) : Except Fault Machine :=
    if depthBound ≤ m.depth then refused "C stack overflow"
    else .ok { (m.park .active).unpark id with
      turns := id :: m.turns, depth := m.depth + 1, held := 0, control }
  if id == m.current then refused "cannot resume non-suspended coroutine"
  else
    match (m.threads[id]?).map Thread.status with
    | some (.fresh f) => turn (.call f args 1 .onward false)
    | some (.suspended deliver) => turn (.give args deliver)
    | some .active => refused "cannot resume non-suspended coroutine"
    | _ => refused "cannot resume dead coroutine"

/-- The machine after a coroutine's turn, which left it as `inner`, and what came
of the turn. -/
def handBack (m : Machine) (stop : Stop) (inner : Machine) : Except Fault (Array Value) × Machine :=
  let (status, answer) : ThreadStatus × Except Fault (Array Value) :=
    match stop with
    | .returned vs => (.finished, .ok vs)
    | .suspended vs deliver => (.suspended deliver, .ok vs)
    | .failed e => (.failed e, .error e)
  (answer, { (inner.park status).unpark m.current with depth := m.depth, held := m.held, control := .run })

/-- Runs a coroutine until it returns, suspends or fails. -/
def resume (run : Runner) (id : Nat) (args : Array Value) (m : Machine) :
    Conversing (Except Fault (Array Value) × Machine) :=
  match m.entered id args with
  | .error f => return (.error f, m)
  | .ok inner => do
    let (stop, inner) ← run inner
    return m.handBack stop inner

/-- Ends a coroutine that will not be resumed.  The answer is the fault it is
left with. -/
def closeThread (run : Runner) (id : Nat) (m : Machine) : Conversing (Option Value × Machine) :=
  match (m.threads[id]?).map Thread.status with
  | some status => do
    let fault := status.fault?
    let m := m.showing (fault.any Fault.isPlaced)
    let outer := m.current
    let depth := m.depth
    let held := m.held
    let m := (m.park .active).unpark id
    let m := { m with frames := [], depth := depth + 1, held := 1, handler := none }
    let m := m.closeCells 0
    let (left, m) ← closeAll run 0 m.closers.length (fault.map Fault.toValue) m
    let m := ({ m with stack := #[], top := 1 }.park .finished).unpark outer
    return (left, { m with depth, held, control := .run })
  | none => return (none, m)

/-- Bytes that a new coroutine takes. -/
def threadCost : Nat := 1000

/-- A new coroutine. -/
def newThread (m : Machine) (f : Value) : Nat × Machine :=
  (m.threads.size,
    { m with
      threads := m.threads.push (.empty (.fresh f))
      heap := m.heap.charge threadCost })

end Machine

/-- Performs a routine of a built-in function that was called in slot `start`. -/
def perform (run : Runner) (callee : Value) (start : Nat) :
    Routine → Machine → Conversing (Outcome × Machine)
  | .done e, m => return (.ended e, m)
  | .fail f, m => return (.raised (m.placed callee f), m)
  | .heap f k, m =>
    match f m.heap.toHeap with
    | (x, heap) => perform run callee start (k x) (m.withHeap heap)
  | .call f args k, m => do
    match ← Machine.nestedCall run (start + 1) f args m with
    | (.ok vs, m) => perform run callee start (k vs) m
    | (.error e, m) => return (.passedOn e, m)
  | .attempt f args k, m => do
    let (answer, m) ← Machine.attemptCall run (start + 1) f args m
    perform run callee start (k answer) m
  | .host c args k, m => do
    let suspends ← m.invoke c args
    perform run callee start (k suspends) m
  | .process u k, m => do
    Conversing.tell (.process u)
    perform run callee start k (m.doing u)
  | .room k, m => perform run callee start (k (Machine.depthBound - m.depth)) m
  | .install c env k, m =>
    match m.install c (env.getD (.table m.heap.globals)) with
    | (f, m) => perform run callee start (k f) m
  | .code f strip k, m =>
    perform run callee start (k ((m.codeOf f).map fun c => if strip then c.strip else c))
      (m.showing (!strip && (m.codeOf f).isSome))
  | .place level k, m =>
    perform run callee start (k (Position.knownText (m.placeAt level)))
      (m.showing (m.placeAt level).isSome)
  | .create f k, m =>
    match m.newThread f with
    | (id, m) => perform run callee start (k id) m
  | .resume id args k, m => do
    match ← Machine.resume run id args m with
    | (.ok vs, m) => perform run callee start (k (.ok vs)) m
    | (.error f, m) => perform run callee start (k (.error f.toValue)) (m.showing f.isPlaced)
  | .liveness id k, m => perform run callee start (k (m.liveness id)) m
  | .broken id k, m =>
    let broken := match (m.threads[id]?).map Thread.status with
      | some (.failed _) => true
      | _ => false
    perform run callee start (k broken) m
  | .close id k, m => do
    let (left, m) ← Machine.closeThread run id m
    perform run callee start (k left) m
  | .running k, m => perform run callee start (k m.current) m
  | .canSuspend id k, m => perform run callee start (k (m.canSuspend id)) m
  | .memory k, m => perform run callee start (k m.inUse) m.weighing
  | .collect k, m => do perform run callee start k (← m.collect run (start + 1))

end NpcDialog.Lua
