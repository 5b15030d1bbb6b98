import NpcDialog.Lua.Machine.Memory
import NpcDialog.Lua.Machine.Perform

/-!
# Instructions

What each instruction does to the machine.  An instruction never runs anything
else to the end: where it needs a call, it leaves the call as the next thing to
do, together with where the results go.

* `Machine.enter` — the beginning of a call of a function of the program.
* `Machine.leave` — the end of one.
* `Machine.execute` — an instruction.
-/

namespace NpcDialog.Lua

open Bytes (ofText)

/-- The value of a constant. -/
@[inline] def Const.value : Const → Value
  | .nil => .nil
  | .bool b => .bool b
  | .int n => .int n
  | .float bits => .float (Float.ofBits bits)
  | .str s => .str s

/-- The value of a small integer, or of the float that it stands for. -/
@[inline] def smallValue (i : Int) (asFloat : Bool) : Value :=
  if asFloat then .float (Float.ofInt i) else .int (Int64.ofInt i)

namespace Machine

/-! ## Registers -/

/-- The value of a register. -/
@[inline] def reg (m : Machine) (a : Activation) (r : Nat) : Value := m.slot (a.base + r)

/-- The machine with another value in a register. -/
@[inline] def setReg (m : Machine) (a : Activation) (r : Nat) (v : Value) : Machine :=
  m.setSlot (a.base + r) v

/-- The value of a constant. -/
@[inline] def const (a : Activation) (k : Nat) : Value := (a.body.consts.getD k .nil).value

/-- The value of an operand. -/
@[inline] def operand (m : Machine) (a : Activation) : Source → Value
  | .reg r => m.reg a r
  | .const k => const a k
  | .small i asFloat => smallValue i asFloat

/-- Where an operand came from. -/
def originOf : Source → Origin
  | .reg r => .register r
  | _ => .elsewhere

/-- Passes over the next instruction. -/
@[inline] def skip (m : Machine) : Machine := { m with pc := m.pc + 1 }

/-- Goes on after a condition that should come out as `expected`. -/
@[inline] def decideOn (m : Machine) (b expected : Bool) : Machine := if b == expected then m else m.skip

/-- Takes the top of the stack back to the end of the registers. -/
@[inline] def settle (m : Machine) (a : Activation) : Machine :=
  { m with top := a.base + a.body.registers }

/-- Leaves the call of a metamethod as the next thing to do. -/
def callHandler (m : Machine) (f : Value) (args : Array Value) (deliver : Deliver) : Machine :=
  { m with control := .call f args m.free deliver true }

/-! ## Calls -/

/-- Begins a call of a function of the program that lies in slot `start` with
`n` arguments behind it.  The innermost of `frames` is the caller. -/
def enter (m : Machine) (id start n : Nat) (deliver : Deliver) (frames : List Frame) (depth : Nat) :
    Machine :=
  match m.heap.closures[id]? with
  | none => m.raise .exhausted
  | some ⟨f, cells⟩ =>
    let m := { m with heap := m.heap.charge (Heap.callCost + Heap.elementCost * f.registers) }
    if stackBound < start + 1 + n + f.registers then m.raiseText (ofText "stack overflow")
    else if f.isVararg then
      let base := start + max n f.params + 2
      let limit := base + f.registers
      let m := m.withSlots limit
      let m := m.copySlots (start + 1) base (min n f.params)
      let m := m.clearFrom (base + n) (f.params - n)
      { m with
        pc := 0, top := limit, control := .run
        frames := .lua ⟨f, cells, base, start, n - f.params, 0, deliver, depth⟩ :: frames }
    else
      let base := start + 1
      let limit := base + f.registers
      let m := m.withSlots limit
      let m := m.clearFrom (base + n) (f.params - n)
      { m with
        pc := 0, top := limit, control := .run
        frames := .lua ⟨f, cells, base, start, 0, 0, deliver, depth⟩ :: frames }

/-- Calls what lies in slot `start` with `n` arguments behind it. -/
def callSlots (m : Machine) (start n : Nat) (deliver : Deliver) : Machine :=
  match m.slot start with
  | .closure id => m.enter id start n deliver m.heldFrames m.depth
  | f => { m with control := .call f (m.valuesFrom (start + 1) n) start deliver false }

/-- Ends the innermost call with the `n` values from slot `start` on as its
results. -/
def leave (m : Machine) (a : Activation) (start n : Nat) : Machine :=
  match m.frames with
  | [] => m
  | _ :: rest =>
    match a.deliver, rest with
    | .slots target (some wanted), .lua b :: _ =>
      let m := m.copySlots start target (min wanted n)
      let m := m.clearFrom (target + n) (wanted - n)
      { m with pc := b.pc, frames := rest, depth := a.depth, top := b.base + b.body.registers }
    | .slots target none, .lua b :: _ =>
      let m := m.copySlots start target n
      { m with pc := b.pc, frames := rest, depth := a.depth, top := target + n }
    | deliver, _ =>
      let vs := m.valuesFrom start n
      { m.withFrames rest with depth := a.depth, control := .give vs deliver }

/-- Closes the next variable from a slot on that is to be closed, if there is
one; the instruction is run again afterwards. -/
def closeNext (m : Machine) (floor : Nat) : Option Machine :=
  match m.closers with
  | [] => none
  | s :: rest =>
    if s < floor then none
    else
      let v := m.slot s
      let handler := m.heap.metamethod v "__close"
      some ({ m with closers := rest }.callHandler handler #[v, .nil] (.again m.top))

/-! ## Fields -/

/-- Reads a field into a register. -/
def fetch (m : Machine) (a : Activation) (target : Nat) (object key : Value) (origin : Origin) :
    Machine :=
  match m.heap.lookup object key with
  | .value v => m.setReg a target v
  | .handled f o => m.callHandler f #[o, key] (.slots (a.base + target) (some 1))
  | .notIndexable o first =>
    m.raiseOperand (ofText "attempt to index a " ++ m.heap.typeName o ++ ofText " value")
      (if first then origin else .elsewhere) ByteArray.empty
  | .tooLong => m.raiseText (ofText "'__index' chain too long; possibly a loop")

/-- Writes a field. -/
def store (m : Machine) (object key value : Value) (origin : Origin) : Machine :=
  match m.heap.assignment object key with
  | .raw id =>
    match Table.checkKey key with
    | .ok key => m.withHeap (m.heap.rawSetNormal id key value)
    | .error why => m.raiseText why.text
  | .handled f o => m.callHandler f #[o, key, value] .discard
  | .notIndexable o first =>
    m.raiseOperand (ofText "attempt to index a " ++ m.heap.typeName o ++ ofText " value")
      (if first then origin else .elsewhere) ByteArray.empty
  | .tooLong => m.raiseText (ofText "'__newindex' chain too long; possibly a loop")

/-! ## Operators -/

/-- Raises a message about the operand that keeps an operator from working: the
first that is no number, or else the second. -/
def raiseOperands (m : Machine) (action : String) (x y : Value) (xo yo : Origin) : Machine :=
  let (v, o) := if x.number?.isNone then (x, xo) else (y, yo)
  m.raiseOperand (ofText "attempt to " ++ ofText action ++ ofText " a " ++ m.heap.typeName v
    ++ ofText " value") o ByteArray.empty

/-- Raises the fault of an operator on numbers. -/
def raiseArith (m : Machine) (e : ArithFault) (xo yo : Origin) : Machine :=
  let notInteger (o : Origin) := m.raiseOperand (ofText "number") o (ofText " has no integer representation")
  match e with
  | .divideByZero => m.raiseText (ofText "attempt to divide by zero")
  | .moduloByZero => m.raiseText (ofText "attempt to perform 'n%0'")
  | .firstNotInteger => notInteger xo
  | .secondNotInteger => notInteger yo

/-- An operator whose operands are not both numbers. -/
def operateOther (m : Machine) (a : Activation) (op : Operator) (target : Nat) (x y : Value)
    (xo yo : Origin) : Machine :=
  let handler := m.heap.binaryHandler x y ("__" ++ op.name)
  if handler.isNil then
    let action := if op.isBitwise then "perform bitwise operation on" else "perform arithmetic on"
    m.raiseOperands action x y xo yo
  else m.callHandler handler #[x, y] (.slots (a.base + target) (some 1))

/-- An operator on two values. -/
@[inline] def operate (m : Machine) (a : Activation) (op : Operator) (target : Nat) (x y : Value)
    (xo yo : Origin) : Machine :=
  match x.number?, y.number? with
  | some p, some q =>
    match Number.apply op p q with
    | .ok n => m.setReg a target (.ofNumber n)
    | .error e => m.raiseArith e xo yo
  | _, _ => m.operateOther a op target x y xo yo

/-- The text of an operand of a concatenation. -/
def joinable? : Value → Option Bytes
  | .str s => some s
  | .int n => some (Number.toText (.int n))
  | .float x => some (Number.toText (.float x))
  | _ => none

/-- How many operands at the end of a list can be joined, and their texts. -/
def joinableFrom (m : Machine) (start : Nat) : Nat → List Bytes → List Bytes
  | 0, acc => acc
  | n + 1, acc =>
    match joinable? (m.slot (start + n)) with
    | some s => joinableFrom m start n (s :: acc)
    | none => acc

/-- Joins the `count` operands from slot `start` on into slot `target`; the last
argument bounds the steps. -/
def concatenate (m : Machine) (target start count : Nat) : Nat → Machine
  | 0 => m
  | n + 1 =>
    if count ≤ 1 then m.setSlot target (m.slot start)
    else
      let texts := m.joinableFrom start count []
      if 2 ≤ texts.length then
        let s := Bytes.join ByteArray.empty texts
        let left := count - texts.length + 1
        match m.charged? (Heap.stringCost s) with
        | none => m.raise .memory
        | some m => concatenate (m.setSlot (start + left - 1) (.str s)) target start left n
      else
        let x := m.slot (start + count - 2)
        let y := m.slot (start + count - 1)
        let handler := m.heap.binaryHandler x y "__concat"
        if handler.isNil then
          let first := (joinable? x).isNone
          let v := if first then x else y
          let r := start + count - (if first then 2 else 1)
          let origin : Origin := match m.frames with
            | .lua a :: _ => .register (r - a.base)
            | _ => .elsewhere
          m.raiseOperand (ofText "attempt to concatenate a " ++ m.heap.typeName v ++ ofText " value")
            origin ByteArray.empty
        else m.callHandler handler #[x, y] (.joined start count target)

/-- The length of a value. -/
def lengthOf (m : Machine) (a : Activation) (target source : Nat) : Machine :=
  let v := m.reg a source
  let viaHandler (m : Machine) (handler : Value) : Machine :=
    m.callHandler handler #[v, v] (.slots (a.base + target) (some 1))
  match v with
  | .str s => m.setReg a target (.ofNat s.size)
  | .table id =>
    let handler := m.heap.metamethod v "__len"
    if handler.isNil then
      let (n, heap) := m.heap.border id
      (m.withHeap heap).setReg a target (.ofNat n)
    else viaHandler m handler
  | _ =>
    let handler := m.heap.metamethod v "__len"
    if handler.isNil then
      m.raiseOperand (ofText "attempt to get length of a " ++ m.heap.typeName v ++ ofText " value")
        (.register source) ByteArray.empty
    else viaHandler m handler

/-- Compares two values by order. -/
def compareBy (m : Machine) (orEqual : Bool) (x y : Value) (expected : Bool) : Machine :=
  match Heap.compareOrder orEqual x y with
  | some b => m.decideOn b expected
  | none =>
    let handler := m.heap.binaryHandler x y (if orEqual then "__le" else "__lt")
    if handler.isNil then m.raiseText (m.heap.orderMessage x y)
    else m.callHandler handler #[x, y] (.condition expected)

/-! ## Loops -/

/-- The message about a bad value of a numeric loop. -/
def raiseLoop (m : Machine) (what : String) (v : Value) : Machine :=
  m.raiseText (ofText "bad 'for' " ++ ofText what ++ ofText " (number expected, got " ++ m.heap.typeName v
    ++ ofText ")")

/-- The last integer a loop may reach, absent if it is not to run at all. -/
def loopLimit (first step : Int64) (limit : Number) : Option Int64 :=
  let bound : Option Int64 :=
    match limit with
    | .int n => some n
    | .float x =>
      match Binary64.toInt64? x (if step < 0 then .ceil else .floor) with
      | some n => some n
      | none =>
        if 0.0 < x then (if step < 0 then none else some Int64.maxValue)
        else (if 0 < step then none else some Int64.minValue)
  bound.filter fun n => if 0 < step then first ≤ n else n ≤ first

/-- How often an integer loop jumps back. -/
def loopCount (first step limit : Int64) : UInt64 :=
  if 0 < step then
    let n := limit.toUInt64 - first.toUInt64
    if step == 1 then n else n / step.toUInt64
  else
    let n := first.toUInt64 - limit.toUInt64
    n / ((0 - (step + 1)).toUInt64 + 1)

/-- Prepares a numeric loop. -/
def prepareLoop (m : Machine) (a : Activation) (r target : Nat) : Machine :=
  let first := m.reg a r
  let limit := m.reg a (r + 1)
  let step := m.reg a (r + 2)
  match first, step, limit.number? with
  | .int i, .int s, some l =>
    if s == 0 then m.raiseText (ofText "'for' step is zero")
    else
      let m := m.setReg a (r + 3) first
      match loopLimit i s l with
      | none => { m with pc := target + 1 }
      | some n => m.setReg a (r + 1) (.int (loopCount i s n).toInt64)
  | .int _, .int s, none =>
    if s == 0 then m.raiseText (ofText "'for' step is zero") else m.raiseLoop "limit" limit
  | _, _, none => m.raiseLoop "limit" limit
  | _, _, some l =>
    match step.number?, first.number? with
    | none, _ => m.raiseLoop "step" step
    | _, none => m.raiseLoop "initial value" first
    | some s, some i =>
      let s := s.toFloat
      let i := i.toFloat
      let l := l.toFloat
      if s == 0.0 then m.raiseText (ofText "'for' step is zero")
      else if (if 0.0 < s then l < i else i < l) then { m with pc := target + 1 }
      else
        (((m.setReg a r (.float i)).setReg a (r + 1) (.float l)).setReg a (r + 2) (.float s)).setReg a (r + 3)
          (.float i)

/-- Steps a numeric loop. -/
def stepLoop (m : Machine) (a : Activation) (r target : Nat) : Machine :=
  match m.reg a (r + 2), m.reg a r with
  | .int s, .int i =>
    match m.reg a (r + 1) with
    | .int n =>
      if n == 0 then m
      else
        let i := i + s
        let m := (m.setReg a (r + 1) (.int (n - 1))).setReg a r (.int i)
        { m.setReg a (r + 3) (.int i) with pc := target }
    | _ => m
  | .float s, .float i =>
    match m.reg a (r + 1) with
    | .float l =>
      let i := i + s
      if (if 0.0 < s then i ≤ l else l ≤ i) then
        { (m.setReg a r (.float i)).setReg a (r + 3) (.float i) with pc := target }
      else m
    | _ => m
  | _, _ => m

/-! ## Tables and functions -/

/-- Notes that a variable is to be closed. -/
def markClose (m : Machine) (a : Activation) (r : Nat) : Machine :=
  let v := m.reg a r
  if !v.isTrue then m
  else if (m.heap.metamethod v "__close").isNil then m.raise (.notClosable m.here r)
  else { m with closers := (a.base + r) :: m.closers }

/-- Stores `n` slots from `start` on as elements of a table. -/
def storeElements (m : Machine) (table start : Nat) (index : Nat) : Nat → Machine
  | 0 => m
  | n + 1 =>
    storeElements (m.withHeap (m.heap.rawSetNormal table (.ofNat index) (m.slot start))) table
      (start + 1) (index + 1) n

/-- Gives a table room for elements. -/
def growElements (m : Machine) (table size : Nat) : Machine :=
  let t := m.heap.tableAt table
  if size ≤ t.array.size then m
  else
    let more := Heap.elementCost * (size - t.array.size)
    m.withHeap ((m.heap.charge more).modifyTable table fun t => t.resize size t.nodes.size)

/-- The cells of a new function. -/
def captureAll (a : Activation) : List CaptureSource → Array Nat → Machine → Array Nat × Machine
  | [], cells, m => (cells, m)
  | c :: rest, cells, m =>
    if c.fromRegister then
      let (id, m) := m.capture (a.base + c.index)
      captureAll a rest (cells.push id) m
    else captureAll a rest (cells.push (a.cells.getD c.index 0)) m

/-- Makes a function. -/
def makeClosure (m : Machine) (a : Activation) (target k : Nat) : Machine :=
  match a.body.children[k]? with
  | none => m
  | some f =>
    let (cells, m) := captureAll a f.captures.toList #[] m
    let (v, heap) := m.heap.newClosure ⟨f, cells⟩
    { m with heap }.setReg a target v

/-- Loads extra arguments. -/
def loadExtra (m : Machine) (a : Activation) (target : Nat) (count : Option Nat) : Machine :=
  let n := count.getD a.extra
  let start := a.base + target
  if stackBound < start + n then m.raiseText (ofText "stack overflow")
  else
    let m := m.withSlots (start + n)
    let m := m.copySlots (a.base - 1 - a.extra) start (min n a.extra)
    let m := m.clearFrom (start + a.extra) (n - a.extra)
    if count.isNone then { m with top := start + n } else m

/-! ## All instructions -/

/-- Executes an instruction of the innermost function. -/
def execute (m : Machine) (a : Activation) (i : Instr) : Machine :=
  match i with
  | .move r b => m.setReg a r (m.reg a b)
  | .loadInt r n => m.setReg a r (.int (Int64.ofInt n))
  | .loadFloat r n => m.setReg a r (.float (Float.ofInt n))
  | .loadConst r k => m.setReg a r (const a k)
  | .loadFalse r => m.setReg a r (.bool false)
  | .loadFalseSkip r => (m.setReg a r (.bool false)).skip
  | .loadTrue r => m.setReg a r (.bool true)
  | .loadNil r last => m.clearFrom (a.base + r) (last + 1 - r)
  | .getCaptured r u => m.setReg a r (m.readCell (a.cells.getD u 0))
  | .setCaptured r u => m.writeCell (a.cells.getD u 0) (m.reg a r)
  | .getCapturedField r u k => m.fetch a r (m.readCell (a.cells.getD u 0)) (const a k) (.captured u)
  | .getIndex r b c => m.fetch a r (m.reg a b) (m.reg a c) (.register b)
  | .getInt r b n => m.fetch a r (m.reg a b) (.ofNat n) (.register b)
  | .getField r b k => m.fetch a r (m.reg a b) (const a k) (.register b)
  | .setCapturedField u k v =>
    m.store (m.readCell (a.cells.getD u 0)) (const a k) (m.operand a v) (.captured u)
  | .setIndex r b v => m.store (m.reg a r) (m.reg a b) (m.operand a v) (.register r)
  | .setInt r n v => m.store (m.reg a r) (.ofNat n) (m.operand a v) (.register r)
  | .setField r k v => m.store (m.reg a r) (const a k) (m.operand a v) (.register r)
  | .newTable r fields elements =>
    let (id, heap) := m.heap.newTable (Table.withRoom elements fields)
    (m.withHeap heap).setReg a r (.table id)
  | .self r b key =>
    let object := m.reg a b
    (m.setReg a (r + 1) object).fetch a r object (m.operand a key) (.register b)
  | .arith op r b c flipped =>
    let x := m.reg a b
    let y := m.operand a c
    if flipped then m.operate a op r y x (originOf c) (.register b)
    else m.operate a op r x y (.register b) (originOf c)
  | .negate r b =>
    let v := m.reg a b
    match v.number? with
    | some n => m.setReg a r (.ofNumber n.negate)
    | none =>
      let handler := m.heap.metamethod v "__unm"
      if handler.isNil then m.raiseOperands "perform arithmetic on" v v (.register b) (.register b)
      else m.callHandler handler #[v, v] (.slots (a.base + r) (some 1))
  | .complement r b =>
    let v := m.reg a b
    match v.number? with
    | some n =>
      match n.toInteger? with
      | some n => m.setReg a r (.int (~~~ n))
      | none => m.raiseArith .firstNotInteger (.register b) (.register b)
    | none =>
      let handler := m.heap.metamethod v "__bnot"
      if handler.isNil then
        m.raiseOperands "perform bitwise operation on" v v (.register b) (.register b)
      else m.callHandler handler #[v, v] (.slots (a.base + r) (some 1))
  | .not r b => m.setReg a r (.bool !(m.reg a b).isTrue)
  | .length r b => m.lengthOf a r b
  | .concat r n => m.concatenate (a.base + r) (a.base + r) n (n + 1)
  | .close r =>
    let floor := a.base + r
    let m := m.closeCells floor
    (m.closeNext floor).getD m
  | .markClose r => m.markClose a r
  | .jump target => { m with pc := target }
  | .compare op r b expected =>
    let x := m.reg a r
    let y := m.operand a b
    match op with
    | .eq =>
      match m.heap.compareEqual x y with
      | .known b => m.decideOn b expected
      | .handled f => m.callHandler f #[x, y] (.condition expected)
    | .lt => m.compareBy false x y expected
    | .le => m.compareBy true x y expected
    | .gt => m.compareBy false y x expected
    | .ge => m.compareBy true y x expected
  | .test r expected => m.decideOn (m.reg a r).isTrue expected
  | .testSet r b expected =>
    let v := m.reg a b
    if v.isTrue == expected then m.setReg a r v else m.skip
  | .call r args results =>
    let start := a.base + r
    let n := args.getD (m.top - (start + 1))
    (m.settle a).callSlots start n (.slots start results)
  | .tailCall r args closing =>
    let start := a.base + r
    let n := args.getD (m.top - (start + 1))
    let m := if closing then m.closeCells a.base else m
    match m.slot start with
    | .closure id =>
      let m := m.copySlots start a.start (n + 1)
      m.enter id a.start n a.deliver m.frames.tail a.depth
    | _ => (m.settle a).callSlots start n (.slots start none)
  | .return r count closing =>
    let start := a.base + r
    let n := count.getD (m.top - start)
    if closing then
      let m := m.closeCells a.base
      let m := { m with top := max m.top (start + n) }
      match m.closeNext a.base with
      | some waiting => waiting
      | none => m.leave a start n
    else m.leave a start n
  | .forLoop r target => m.stepLoop a r target
  | .forPrep r target => m.prepareLoop a r target
  | .iterPrep r target => { m.markClose a (r + 3) with pc := target }
  | .iterCall r n =>
    let start := a.base + r + 4
    let m := m.copySlots (a.base + r) start 3
    m.callSlots start 2 (.slots start (some n))
  | .iterLoop r target =>
    let v := m.reg a (r + 4)
    if v.isNil then m else { m.setReg a (r + 2) v with pc := target }
  | .setList r count offset =>
    let n := count.getD (m.top - (a.base + r + 1))
    match m.reg a r with
    | .table id => (((m.growElements id (offset + n)).storeElements id (a.base + r + 1) (offset + 1) n)).settle a
    | _ => m
  | .closure r k => m.makeClosure a r k
  | .vararg r count => m.loadExtra a r count
  | .varargPrep _ => m

end Machine

end NpcDialog.Lua
