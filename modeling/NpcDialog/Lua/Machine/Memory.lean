import NpcDialog.Lua.Machine

/-!
# Memory in use

How many bytes the things take that a program can still reach.  The machine
adds up what it allocates and never subtracts; when the sum passes the limit,
the reachable things are counted anew, and only if they alone pass the limit
there is not enough memory.  What the host tries in vain leaves traces in the
memory in use, although not in the sum.

Nothing is collected by itself: a program that asks for it, and one whose machine
is given up, lose what they cannot reach, where weak references do not count.

* `Machine.marking` — what is reachable, with weak references or without them.
* `Machine.liveBytes` — the bytes of all reachable things.
* `Machine.swept` — what is not reachable, taken out of sight.
* `Machine.collected` — the machine with its sum corrected.
* `Machine.charged?` — an allocation that may not be possible.
* `Machine.littered`, `Machine.squeezed` — traces of what the host has tried.
-/

namespace NpcDialog.Lua

/-- What has been reached so far. -/
structure Marking where
  /-- The tables. -/
  tables : Array Bool
  /-- The functions of the program. -/
  closures : Array Bool
  /-- The built-in functions with values. -/
  bounds : Array Bool
  /-- The captured variables. -/
  cells : Array Bool
  /-- The coroutines. -/
  threads : Array Bool
  /-- The long strings. -/
  strings : List Bytes
  /-- Are weak references followed, too? -/
  follows : Bool
  /-- The tables with weak references that were not followed. -/
  weak : List Nat
  /-- Things whose parts have not been looked at. -/
  work : Array Value
  /-- The bytes of everything reached. -/
  bytes : Nat

namespace Marking

/-- The size from which on a string is counted only once. -/
def longSize : Nat := 200

/-- Reaches a string. -/
def reachString (k : Marking) (s : Bytes) : Marking :=
  if s.size < longSize then { k with bytes := k.bytes + Heap.stringCost s }
  else if k.strings.any (fun t => t.size == s.size && t == s) then k
  else { k with strings := s :: k.strings, bytes := k.bytes + Heap.stringCost s }

/-- Reaches a value. -/
def reach (k : Marking) (v : Value) : Marking :=
  match v with
  | .str s => k.reachString s
  | .table id =>
    if k.tables.getD id true then k
    else { k with tables := k.tables.setIfInBounds id true, work := k.work.push v }
  | .closure id =>
    if k.closures.getD id true then k
    else { k with closures := k.closures.setIfInBounds id true, work := k.work.push v }
  | .bound id =>
    if k.bounds.getD id true then k
    else { k with bounds := k.bounds.setIfInBounds id true, work := k.work.push v }
  | .thread id =>
    if k.threads.getD id true then k
    else { k with threads := k.threads.setIfInBounds id true, work := k.work.push v }
  | _ => k

/-- Reaches several values. -/
def reachAll (k : Marking) (vs : Array Value) : Marking := vs.foldl reach k

/-- Reaches a captured variable. -/
def reachCell (m : Machine) (k : Marking) (id : Nat) : Marking :=
  if k.cells.getD id true then k
  else
    let k := { k with cells := k.cells.setIfInBounds id true, bytes := k.bytes + 40 }
    k.reach (m.readCell id)

/-- Reaches what a frame holds. -/
def reachFrame (m : Machine) (k : Marking) (f : Frame) : Marking :=
  match f with
  | .lua a => a.cells.foldl (reachCell m) { k with bytes := k.bytes + Heap.callCost }
  | .protect p => (p.handler.elim k k.reach)
  | _ => k

/-- The slot behind all that the innermost of some frames uses. -/
def usedSlots (top : Nat) : List Frame → Nat
  | .lua a :: _ => max top (a.base + a.body.registers)
  | _ :: rest => usedSlots top rest
  | [] => top

/-- Reaches what a coroutine holds that uses so many slots; the others hold nothing. -/
def reachThread (m : Machine) (k : Marking) (stack : Array Value) (slots : Nat) (frames : List Frame) :
    Marking :=
  let k := { k with bytes := k.bytes + Heap.elementCost * slots + 200 }
  frames.foldl (reachFrame m) (k.reachAll (stack.extract 0 slots))

/-- Looks at the fields of a table, and at none that is behind a weak reference. -/
def lookIntoTable (h : Heap) (k : Marking) (id : Nat) : Marking :=
  let t := h.tableAt id
  let (keys, values) := if k.follows then (false, false) else h.weakness id
  let k := { k with
    bytes := k.bytes + Heap.sizeOfTable t
    weak := if keys || values then id :: k.weak else k.weak }
  let k := if values then k else k.reachAll t.array
  let k := t.nodes.foldl (fun k n =>
    if n.value.isNil then k
    else
      let k := if keys then k else k.reach n.key
      if keys || values then k else k.reach n.value) k
  t.metatable.elim k fun i => k.reach (.table i)

/-- Looks at the parts of a thing. -/
def lookInto (m : Machine) (k : Marking) (v : Value) : Marking :=
  match v with
  | .table id => k.lookIntoTable m.heap.toHeap id
  | .closure id =>
    match m.heap.closures[id]? with
    | some c => c.cells.foldl (reachCell m) { k with bytes := k.bytes + 32 + 8 * c.cells.size }
    | none => k
  | .bound id =>
    match m.heap.bounds[id]? with
    | some b => { k with bytes := k.bytes + 32 + 16 * b.values.size }.reachAll b.values
    | none => k
  | .thread id =>
    match m.threads[id]? with
    | some t =>
      let k := match t.status with
        | .fresh f => k.reach f
        | .failed f => f.raised?.elim k k.reach
        | _ => k
      reachThread m k t.stack (usedSlots t.top t.frames) t.frames
    | none => k
  | _ => k

/-- Looks at everything there is to look at, `n` things at most. -/
def finish (m : Machine) : Nat → Marking → Marking
  | 0, k => k
  | n + 1, k =>
    match k.work.back? with
    | none => k
    | some v => finish m n (lookInto m { k with work := k.work.pop } v)

/-- Is this something that was not reached? -/
def misses (k : Marking) : Value → Bool
  | .table id => !k.tables.getD id true
  | .closure id => !k.closures.getD id true
  | .bound id => !k.bounds.getD id true
  | .thread id => !k.threads.getD id true
  | _ => false

/-- Reaches what only the keys of tables with weak keys lead to, if these are reached. -/
def reachByKeys (h : Heap) (k : Marking) : Marking :=
  k.weak.foldl (fun k id =>
    if (h.weakness id).2 then k
    else (h.tableAt id).nodes.foldl (fun k n =>
      if n.value.isNil || k.misses n.key then k else k.reach n.value) k) k

/-- Looks at everything there is to look at, `n` things at most and so many times. -/
def finishAll (m : Machine) (n : Nat) : Nat → Marking → Marking
  | 0, k => k
  | times + 1, k =>
    let k := reachByKeys m.heap.toHeap (finish m n k)
    if k.work.isEmpty then k else finishAll m n times k

end Marking

namespace Machine

/-- Bytes that a program takes before it has done anything. -/
def baseBytes : Nat := 20000

/-- No fewer than the things that there are. -/
def things (m : Machine) : Nat :=
  m.heap.tables.size + m.heap.closures.size + m.heap.bounds.size + m.threads.size + 1

/-- Everything that can be reached while the running coroutine uses so many slots. -/
def marking (m : Machine) (follows : Bool) (slots : Nat) : Marking :=
  let h := m.heap
  let none_ (n : Nat) : Array Bool := Array.replicate n false
  let k : Marking := ⟨none_ h.tables.size, none_ h.closures.size, none_ h.bounds.size,
    none_ h.cells.size, none_ m.threads.size, [], follows, [], #[], baseBytes⟩
  let roots := #[Value.table h.globals, .table h.loaded]
    ++ (h.stringMeta.toArray ++ h.fileMeta.toArray ++ h.handleMetas).map Value.table
    ++ m.handler.toArray
  let k := (m.control.held.foldl Marking.reach (k.reachAll roots))
  let k := Marking.reachThread m k m.stack slots m.frames
  let waiting := (Array.range m.threads.size).filter fun i =>
    (m.threads[i]?).any fun t => t.status.isActive
  let k := k.reachAll (waiting.map Value.thread)
  Marking.finishAll m m.things m.things k

/-- The bytes of all reachable things. -/
def liveBytes (m : Machine) : Nat :=
  (m.marking true (Marking.usedSlots m.top m.frames)).bytes + m.codeBytes

/-- The tables that are to be finalized because nothing reaches them, while the running
coroutine uses so many slots, and the heap without weak references to what nothing reaches.
A weak value is gone even if something that is finalized still leads to it; a weak key is
not. -/
def swept (m : Machine) (slots : Nat) : List Nat × Heap :=
  let k := m.marking false slots
  let due := m.heap.marked.filter fun id => k.misses (.table id)
  let left := m.withHeap (m.heap.toHeap.withoutValues k.weak k.misses)
  -- what is finalized is seen once more, and so is all that it leads to
  let k := Marking.finishAll left m.things m.things (k.reachAll (due.toArray.map Value.table))
  let heap := (left.heap.toHeap.withoutKeys k.weak k.misses).withoutValues k.weak k.misses
  (due, { heap with marked := heap.marked.filter fun id => !due.contains id })

/-- The machine with its sum of bytes in use corrected. -/
def collected (m : Machine) : Machine :=
  let live := m.liveBytes
  { m with heap := { m.heap with used := live }, drift := 0 }

/-- The machine with more bytes in use, unless there is not enough memory for
them. -/
def charged? (m : Machine) (n : Nat) : Option Machine :=
  let enough (m : Machine) : Bool := m.heap.limit == 0 || m.heap.used + n ≤ m.heap.limit
  let m := if enough m then m else m.collected
  if enough m then some { m with heap := m.heap.charge n } else none

/-- The machine after something was left behind that nothing reaches. -/
def littered (m : Machine) (n : Nat) : Machine := { m with drift := m.drift + n }

/-- The machine after everything out of reach was given up in vain. -/
def squeezed (m : Machine) : Machine := { m with drift := m.liveBytes - m.heap.used }

end Machine

end NpcDialog.Lua
