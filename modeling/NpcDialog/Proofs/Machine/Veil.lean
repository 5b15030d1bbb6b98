import NpcDialog.Lua.Machine.Step

/-!
# Machines behind a veil

A veil leaves something of a machine out of sight that nothing is decided by: the record
of turns, maybe the memory that does not count, and maybe the notes on code too.  An
instruction does the same on both sides of the veil, so it makes no difference whether a
machine is veiled before or after it.

* `Veil` — what is out of sight.
* `Veil.machine` — a machine behind a veil.
* `Machine.execute_veil` — an instruction on both sides of a veil.
-/

namespace NpcDialog.Lua

open Bytes (ofText)

/-! ## Functions without notes -/

namespace FunctionCode

variable (f : FunctionCode)

/-- Functions lose their notes one by one. -/
theorem stripAll_eq (fs : List FunctionCode) : stripAll fs = fs.map strip := by
  induction fs with
  | nil => rfl
  | cons f rest ih => rw [stripAll, ih, List.map_cons]

/-- Notes are all that is left out: the parameters are the same. -/
theorem strip_params : f.strip.params = f.params := by
  cases f
  rfl

theorem strip_isVararg : f.strip.isVararg = f.isVararg := by
  cases f
  rfl

theorem strip_registers : f.strip.registers = f.registers := by
  cases f
  rfl

/-- The instructions are the same too. -/
theorem strip_code : f.strip.code = f.code := by
  cases f
  rfl

theorem strip_consts : f.strip.consts = f.consts := by
  cases f
  rfl

theorem strip_captures : f.strip.captures = f.captures := by
  cases f
  rfl

/-- The functions inside lose their notes as well. -/
theorem strip_children : f.strip.children = f.children.map strip := by
  cases f
  exact stripAll_eq _

/-- Without its notes a function has none to be left out. -/
theorem strip_strip : f.strip.strip = f.strip := by
  refine FunctionCode.rec (motive_1 := fun f => f.strip.strip = f.strip)
    (motive_2 := fun fs => stripAll (stripAll fs) = stripAll fs) ?mk ?nil ?cons f
  case nil => rfl
  case cons =>
    intro f rest ihf ihrest
    rw [stripAll, stripAll, ihf, ihrest]
  case mk =>
    intro params isVararg registers code consts captures notes children ih
    rw [strip, strip, ih]
    rfl

end FunctionCode

/-- What is left out of sight of a machine. -/
inductive Veil where
  /-- The record of turns. -/
  | turns
  /-- The bytes that do not count for the limit, and the record of turns. -/
  | weight
  /-- The notes on code, with the bytes they take, and all that is out of sight else. -/
  | notes

namespace Veil

variable (V : Veil)

/-! ## Things behind a veil -/

/-- Are the notes on code out of sight? -/
def bare : Veil → Bool
  | .turns | .weight => false
  | .notes => true

/-- Are the bytes out of sight that do not count for the limit? -/
def light : Veil → Bool
  | .turns => false
  | .weight | .notes => true

theorem light_of_bare {V : Veil} (bare : V.bare = true) : V.light = true := by
  cases V <;> first | rfl | cases bare

/-- Code behind a veil. -/
def code (f : FunctionCode) : FunctionCode := if V.bare then f.strip else f

/-- A place in the code. -/
def position (p : Position) : Position := { p with function := V.code p.function }

/-- A fault. -/
def fault : Fault → Fault
  | .message place text => .message (place.map V.position) text
  | .located place text => .located (place.map V.position) text
  | .operand place before origin behind => .operand (place.map V.position) before origin behind
  | .call place typeName origin => .call (place.map V.position) typeName origin
  | .notClosable place register => .notClosable (place.map V.position) register
  | .argument caller globalName number extra =>
    .argument (caller.map V.position) globalName number extra
  | f => f

/-- A call of a function of the program. -/
def activation (a : Activation) : Activation := { a with body := V.code a.body }

/-- What waits for the results of a call. -/
def frame : Frame → Frame
  | .lua a => .lua (V.activation a)
  | f => f

/-- What a coroutine is up to. -/
def status : ThreadStatus → ThreadStatus
  | .failed f => .failed (V.fault f)
  | s => s

/-- A coroutine. -/
def thread (t : Thread) : Thread :=
  { t with status := V.status t.status, frames := t.frames.map V.frame }

/-- What to do next. -/
def control : Control → Control
  | .raise f => .raise (V.fault f)
  | .unwind f => .unwind (V.fault f)
  | c => c

/-- A function of the program. -/
def closure (c : Closure) : Closure := { c with code := V.code c.code }

/-- The store. -/
def store (s : Store) : Store :=
  { s with closures := s.closures.map V.closure }

/-- A machine behind a veil. -/
def machine (m : Machine) : Machine :=
  { m with
    heap := V.store m.heap, threads := m.threads.map V.thread, turns := []
    noteBytes := if V.light then 0 else m.noteBytes, drift := if V.light then 0 else m.drift
    frames := m.frames.map V.frame, control := V.control m.control }

/-- Why a run ends. -/
def stop : Stop → Stop
  | .failed f => .failed (V.fault f)
  | s => s

/-- What a step leads to. -/
def step : Step → Step
  | .next m => .next (V.machine m)
  | .stop s m => .stop (V.stop s) (V.machine m)

@[simp] theorem base_activation (a : Activation) : (V.activation a).base = a.base := rfl

@[simp] theorem cells_activation (a : Activation) : (V.activation a).cells = a.cells := rfl

@[simp] theorem extra_activation (a : Activation) : (V.activation a).extra = a.extra := rfl

@[simp] theorem start_activation (a : Activation) : (V.activation a).start = a.start := rfl

@[simp] theorem depth_activation (a : Activation) : (V.activation a).depth = a.depth := rfl

@[simp] theorem deliver_activation (a : Activation) : (V.activation a).deliver = a.deliver := rfl

/-! ## Code -/

section Code

variable (f : FunctionCode)

@[simp] theorem code_params : (V.code f).params = f.params := by
  unfold code
  split
  · exact f.strip_params
  · rfl

@[simp] theorem code_isVararg : (V.code f).isVararg = f.isVararg := by
  unfold code
  split
  · exact f.strip_isVararg
  · rfl

@[simp] theorem code_registers : (V.code f).registers = f.registers := by
  unfold code
  split
  · exact f.strip_registers
  · rfl

@[simp] theorem code_code : (V.code f).code = f.code := by
  unfold code
  split
  · exact f.strip_code
  · rfl

@[simp] theorem code_consts : (V.code f).consts = f.consts := by
  unfold code
  split
  · exact f.strip_consts
  · rfl

@[simp] theorem code_captures : (V.code f).captures = f.captures := by
  unfold code
  split
  · exact f.strip_captures
  · rfl

@[simp] theorem code_children : (V.code f).children = f.children.map V.code := by
  have own : V.code = fun f => if V.bare then f.strip else f := rfl
  rw [own]
  cases V.bare with
  | true => exact f.strip_children
  | false => simp

end Code

/-! ## Faults and places -/

/-- A fault that tells no place is the same on both sides. -/
theorem fault_of_unplaced {f : Fault} (unplaced : f.isPlaced = false) : V.fault f = f := by
  cases f <;> simp_all [fault, Fault.isPlaced, Fault.place?]

/-- Whether a fault tells a place does not depend on what is known of the place. -/
@[simp] theorem isPlaced_fault (f : Fault) : (V.fault f).isPlaced = f.isPlaced := by
  cases f <;> simp [fault, Fault.isPlaced, Fault.place?]

/-- The value that was raised is the same on both sides. -/
@[simp] theorem raised?_fault (f : Fault) : (V.fault f).raised? = f.raised? := by
  cases f <;> rfl

/-- Without notes out of sight all faults are the same on both sides. -/
theorem fault_of_noted (noted : V.bare = false) (f : Fault) : V.fault f = f := by
  have position : V.position = id := by
    funext p
    simp [Veil.position, code, noted]
  cases f <;> simp [fault, position]

end Veil

namespace Machine

variable (V : Veil) (m : Machine)

/-! ## Places -/

/-- The place of an instruction is the same, but for the notes on it. -/
@[simp] theorem here_veil : (V.machine m).here = m.here.map V.position := by
  unfold here
  cases frames : m.frames with
  | nil => simp [Veil.machine, frames]
  | cons f rest => cases f <;> simp [Veil.machine, frames, Veil.frame, Veil.activation, Veil.position]

/-- So is the place of a caller. -/
@[simp] theorem placeAt_veil (level : Nat) :
    (V.machine m).placeAt level = (m.placeAt level).map V.position := by
  cases level with
  | zero => rfl
  | succ n =>
    cases n with
    | zero => exact here_veil V m
    | succ n =>
      simp only [placeAt, Veil.machine, List.getElem?_map]
      rcases m.frames[n + 1]? with _ | _ | _ <;> rfl

/-- Both sides take the same note of what was shown to the script. -/
theorem disclosing_veil (d : Disclosures) :
    (V.machine m).disclosing d = V.machine (m.disclosing d) :=
  rfl

/-- A fault with a text.  Its place is the only thing that the veil can hide. -/
@[simp] theorem raiseText_veil (text : Bytes) :
    (V.machine m).raiseText text = V.machine (m.raiseText text) := by
  rw [raiseText, here_veil]
  rfl

/-- A fault about an operand, whose origin is told by instructions and not by notes. -/
@[simp] theorem raiseOperand_veil (before : Bytes) (o : Origin) (behind : Bytes) :
    (V.machine m).raiseOperand before o behind = V.machine (m.raiseOperand before o behind) := by
  rw [raiseOperand, here_veil]
  rfl

@[simp] theorem heldFrames_veil : (V.machine m).heldFrames = m.heldFrames.map V.frame := by
  unfold heldFrames
  cases frames : m.frames with
  | nil => simp [Veil.machine, frames]
  | cons f rest => cases f <;> simp [Veil.machine, frames, Veil.frame, Veil.activation]

@[simp] theorem withFrames_veil (frames : List Frame) :
    (V.machine m).withFrames (frames.map V.frame) = V.machine (m.withFrames frames) := by
  cases frames with
  | nil => rfl
  | cons f rest => cases f <;> rfl

@[simp] theorem free_veil : (V.machine m).free = m.free := by
  unfold free
  cases frames : m.frames with
  | nil => simp [Veil.machine, frames]
  | cons f rest => cases f <;> simp [Veil.machine, frames, Veil.frame, Veil.activation]

/-! ## The stack -/

@[simp] theorem slot_veil (i : Nat) : (V.machine m).slot i = m.slot i := rfl

@[simp] theorem setSlot_veil (i : Nat) (v : Value) :
    (V.machine m).setSlot i v = V.machine (m.setSlot i v) := rfl

/-- The stacks are the same on both sides, and so they grow alike. -/
@[simp] theorem withSlots_veil (n : Nat) : (V.machine m).withSlots n = V.machine (m.withSlots n) := by
  unfold withSlots
  split <;> split <;> first | rfl | contradiction

@[simp] theorem putFrom_veil (start : Nat) (vs : Array Value) :
    (V.machine m).putFrom start vs = V.machine (m.putFrom start vs) := rfl

/-- Slots are cleared alike.  The induction is on their number. -/
@[simp] theorem clearFrom_veil (start n : Nat) :
    (V.machine m).clearFrom start n = V.machine (m.clearFrom start n) := by
  induction n generalizing m start with
  | zero => rfl
  | succ n ih => exact ih (m.setSlot start .nil) _

/-- Slots are copied alike.  The induction is on their number. -/
@[simp] theorem copySlots_veil (source target n : Nat) :
    (V.machine m).copySlots source target n = V.machine (m.copySlots source target n) := by
  induction n generalizing m source target with
  | zero => rfl
  | succ n ih => exact ih (m.setSlot target (m.slot source)) _ _

@[simp] theorem valuesFrom_veil (start n : Nat) :
    (V.machine m).valuesFrom start n = m.valuesFrom start n := rfl

@[simp] theorem reg_veil (a : Activation) (r : Nat) :
    (V.machine m).reg (V.activation a) r = m.reg a r := rfl

@[simp] theorem setReg_veil (a : Activation) (r : Nat) (v : Value) :
    (V.machine m).setReg (V.activation a) r v = V.machine (m.setReg a r v) := rfl

@[simp] theorem const_veil (a : Activation) (k : Nat) : const (V.activation a) k = const a k := by
  simp [const, Veil.activation]

/-- Operands have the same values on both sides, constants included. -/
@[simp] theorem operand_veil (a : Activation) (s : Source) :
    (V.machine m).operand (V.activation a) s = m.operand a s := by
  cases s with
  | const k => exact const_veil V a k
  | _ => rfl

@[simp] theorem skip_veil : (V.machine m).skip = V.machine m.skip := rfl

@[simp] theorem decideOn_veil (b expected : Bool) :
    (V.machine m).decideOn b expected = V.machine (m.decideOn b expected) := by
  unfold decideOn
  split <;> rfl

/-- A function leaves room for the same registers. -/
@[simp] theorem settle_veil (a : Activation) :
    (V.machine m).settle (V.activation a) = V.machine (m.settle a) := by
  simp only [settle, Veil.activation, Veil.code_registers]
  rfl

/-- A metamethod is called alike. -/
@[simp] theorem callHandler_veil (f : Value) (args : Array Value) (deliver : Deliver) :
    (V.machine m).callHandler f args deliver = V.machine (m.callHandler f args deliver) := by
  simp only [callHandler, free_veil]
  rfl

@[simp] theorem withHeap_veil (h : Heap) :
    (V.machine m).withHeap h = V.machine (m.withHeap h) := rfl

@[simp] theorem toHeap_veil : (V.machine m).heap.toHeap = m.heap.toHeap := rfl

/-! ## Captured variables -/

/-- A captured variable has the same value, wherever it lies. -/
@[simp] theorem readCell_veil (id : Nat) : (V.machine m).readCell id = m.readCell id := by
  have same : (V.machine m).heap.cells = m.heap.cells := rfl
  simp only [readCell, same]
  split
  · rfl
  · next thread i _ =>
    split <;> split <;> first | rfl | contradiction | skip
    simp only [Veil.machine, Array.getElem?_map]
    cases m.threads[thread]? <;> rfl
  · rfl

/-- A captured variable is written alike.  One that still lies in the stack of another
coroutine is written there, and only what that coroutine is up to can be hidden. -/
@[simp] theorem writeCell_veil (id : Nat) (v : Value) :
    (V.machine m).writeCell id v = V.machine (m.writeCell id v) := by
  have same : (V.machine m).heap.cells = m.heap.cells := rfl
  simp only [writeCell, same]
  split
  · rfl
  · next thread i _ =>
    split <;> split <;> first | rfl | contradiction | skip
    simp only [Veil.machine]
    congr 1
    apply Array.ext
    · simp
    · intro j _ _
      simp only [Array.getElem_modify, Array.getElem_map]
      split <;> rfl
  · rfl

/-- A variable is captured alike. -/
@[simp] theorem capture_veil (slot : Nat) :
    (V.machine m).capture slot = ((m.capture slot).1, V.machine (m.capture slot).2) := by
  have cells : (V.machine m).cells = m.cells := rfl
  simp only [capture, cells]
  split <;> rfl

/-- Captured variables leave the stack alike. -/
@[simp] theorem closeCells_veil (floor : Nat) :
    (V.machine m).closeCells floor = V.machine (m.closeCells floor) := by
  have cells : (V.machine m).cells = m.cells := rfl
  simp only [closeCells, cells]
  split
  · rfl
  · split <;> rfl

/-! ## Calls -/

/-- A function of the program is there on both sides, with its code behind the veil. -/
theorem closures_veil (id : Nat) :
    (V.machine m).heap.closures[id]? = (m.heap.closures[id]?).map V.closure := by
  simp [Veil.machine, Veil.store]

/-- The code of a value is the same, but for its notes. -/
@[simp] theorem codeOf_veil (f : Value) : (V.machine m).codeOf f = (m.codeOf f).map V.code := by
  unfold codeOf
  cases f with
  | closure id =>
    simp only [closures_veil]
    cases m.heap.closures[id]? <;> rfl
  | _ => rfl

theorem charge_veil (n : Nat) : { V.machine m with heap := (V.machine m).heap.charge n } =
    V.machine { m with heap := m.heap.charge n } := rfl

/-- A call of a function of the program begins alike. -/
@[simp] theorem enter_veil (id start n : Nat) (deliver : Deliver) (frames : List Frame) (depth : Nat) :
    (V.machine m).enter id start n deliver (frames.map V.frame) depth =
      V.machine (m.enter id start n deliver frames depth) := by
  simp only [enter, closures_veil]
  cases m.heap.closures[id]? with
  | none => rfl
  | some c =>
    obtain ⟨f, cells⟩ := c
    simp only [Option.map_some, Veil.closure, Veil.code_registers, Veil.code_isVararg,
      Veil.code_params, charge_veil, withSlots_veil, copySlots_veil, clearFrom_veil, raiseText_veil]
    split
    · rfl
    · split <;> rfl

@[simp] theorem callSlots_veil (start n : Nat) (deliver : Deliver) :
    (V.machine m).callSlots start n deliver = V.machine (m.callSlots start n deliver) := by
  simp only [callSlots, slot_veil, heldFrames_veil]
  split
  · exact enter_veil V m _ _ _ _ _ _
  · rfl

/-- It ends alike. -/
@[simp] theorem leave_veil (a : Activation) (start n : Nat) :
    (V.machine m).leave (V.activation a) start n = V.machine (m.leave a start n) := by
  have frames : (V.machine m).frames = m.frames.map V.frame := rfl
  simp only [leave, frames]
  cases m.frames with
  | nil => rfl
  | cons f rest =>
    simp only [List.map_cons, Veil.deliver_activation, Veil.depth_activation, copySlots_veil,
      clearFrom_veil, valuesFrom_veil,
      withFrames_veil]
    cases a.deliver with
    | slots target wanted =>
      cases wanted <;> cases rest with
      | nil => rfl
      | cons g rest =>
        cases g <;> simp [Veil.frame, Veil.activation] <;> rfl
    | _ => rfl

/-- The next variable to be closed is the same. -/
theorem closeNext_veil (floor : Nat) :
    (V.machine m).closeNext floor = (m.closeNext floor).map V.machine := by
  have closers : (V.machine m).closers = m.closers := rfl
  simp only [closeNext, closers]
  cases m.closers with
  | nil => rfl
  | cons s rest =>
    dsimp only
    split
    · rfl
    · exact congrArg some (callHandler_veil V { m with closers := rest } _ _ _)

/-! ## Fields and operators -/

/-- A field is read alike. -/
@[simp] theorem fetch_veil (a : Activation) (target : Nat) (object key : Value) (o : Origin) :
    (V.machine m).fetch (V.activation a) target object key o =
      V.machine (m.fetch a target object key o) := by
  simp only [fetch, toHeap_veil]
  split
  · exact setReg_veil V m a _ _
  · exact callHandler_veil V m _ _ _
  · exact raiseOperand_veil V m _ _ _
  · exact raiseText_veil V m _

/-- A field is written alike. -/
@[simp] theorem store_veil (object key value : Value) (o : Origin) :
    (V.machine m).store object key value o = V.machine (m.store object key value o) := by
  simp only [store, toHeap_veil]
  split
  · split
    · rfl
    · exact raiseText_veil V m _
  · exact callHandler_veil V m _ _ _
  · exact raiseOperand_veil V m _ _ _
  · exact raiseText_veil V m _

@[simp] theorem raiseOperands_veil (action : String) (x y : Value) (xo yo : Origin) :
    (V.machine m).raiseOperands action x y xo yo = V.machine (m.raiseOperands action x y xo yo) :=
  raiseOperand_veil V m _ _ _

/-- A fault of a calculation.  Which operand it names is decided by the values. -/
@[simp] theorem raiseArith_veil (e : ArithFault) (xo yo : Origin) :
    (V.machine m).raiseArith e xo yo = V.machine (m.raiseArith e xo yo) := by
  cases e <;> simp [raiseArith]

@[simp] theorem operateOther_veil (a : Activation) (op : Operator) (target : Nat) (x y : Value)
    (xo yo : Origin) : (V.machine m).operateOther (V.activation a) op target x y xo yo =
      V.machine (m.operateOther a op target x y xo yo) := by
  simp only [operateOther, toHeap_veil, raiseOperands_veil, callHandler_veil, Veil.base_activation,
    apply_ite V.machine]

/-- Operators give the same results and the same faults. -/
@[simp] theorem operate_veil (a : Activation) (op : Operator) (target : Nat) (x y : Value)
    (xo yo : Origin) : (V.machine m).operate (V.activation a) op target x y xo yo =
      V.machine (m.operate a op target x y xo yo) := by
  unfold operate
  split
  · split
    · rfl
    · exact raiseArith_veil V m _ _ _
  · exact operateOther_veil V m a op target x y xo yo

/-- The same values can be joined to a text.  The induction is on their number. -/
@[simp] theorem joinableFrom_veil (start n : Nat) (acc : List Bytes) :
    (V.machine m).joinableFrom start n acc = m.joinableFrom start n acc := by
  induction n generalizing acc with
  | zero => rfl
  | succ n ih =>
    simp only [joinableFrom, slot_veil, ih]

/-! ## Memory -/

/-- The same values are reached from a captured variable, which code has no part in. -/
theorem reachCell_veil : Marking.reachCell (V.machine m) = Marking.reachCell m := by
  funext k id
  simp only [Marking.reachCell, readCell_veil]

/-- The same values are reached from a call.  Its constants count, and they are no
notes. -/
theorem reachFrame_veil (k : Marking) (f : Frame) :
    Marking.reachFrame (V.machine m) k (V.frame f) = Marking.reachFrame m k f := by
  cases f with
  | lua a => simp [Marking.reachFrame, Veil.frame, reachCell_veil]
  | _ => rfl

theorem usedSlots_veil (top : Nat) (frames : List Frame) :
    Marking.usedSlots top (frames.map V.frame) = Marking.usedSlots top frames := by
  induction frames with
  | nil => rfl
  | cons f rest ih =>
    cases f with
    | lua a => simp [Veil.frame, Marking.usedSlots, Veil.activation]
    | _ => exact ih

/-- The same values are reached from a coroutine. -/
theorem reachThread_veil (k : Marking) (stack : Array Value) (slots : Nat) (frames : List Frame) :
    Marking.reachThread (V.machine m) k stack slots (frames.map V.frame) =
      Marking.reachThread m k stack slots frames := by
  simp only [Marking.reachThread, List.foldl_map, reachFrame_veil]

/-- The same values are reached from one that was reached. -/
theorem lookInto_veil (k : Marking) (v : Value) :
    Marking.lookInto (V.machine m) k v = Marking.lookInto m k v := by
  cases v with
  | closure id =>
    simp only [Marking.lookInto, closures_veil, reachCell_veil]
    cases m.heap.closures[id]? <;> rfl
  | thread id =>
    have threads : (V.machine m).threads[id]? = (m.threads[id]?).map V.thread := by
      simp [Veil.machine]
    simp only [Marking.lookInto, threads]
    cases m.threads[id]? with
    | none => rfl
    | some t =>
      simp only [Option.map_some, Veil.thread, reachThread_veil, usedSlots_veil]
      cases t.status with
      | failed f => simp [Veil.status]
      | _ => rfl
  | _ => rfl

/-- The induction is on the bound for the things to look at. -/
theorem finish_veil (n : Nat) (k : Marking) :
    Marking.finish (V.machine m) n k = Marking.finish m n k := by
  induction n generalizing k with
  | zero => rfl
  | succ n ih => simp only [Marking.finish, lookInto_veil, ih]

/-- The induction is on how often there may be more to look at. -/
theorem finishAll_veil (n times : Nat) (k : Marking) :
    Marking.finishAll (V.machine m) n times k = Marking.finishAll m n times k := by
  induction times generalizing k with
  | zero => rfl
  | succ times ih =>
    simp only [Marking.finishAll, finish_veil, ih]
    rfl

theorem things_veil : (V.machine m).things = m.things := by
  have closures : (V.machine m).heap.closures.size = m.heap.closures.size := by
    simp [Veil.machine, Veil.store]
  have threads : (V.machine m).threads.size = m.threads.size := by simp [Veil.machine]
  rw [things, closures, threads]
  rfl

/-- The same things are reached. -/
theorem marking_veil (follows : Bool) (slots : Nat) :
    (V.machine m).marking follows slots = m.marking follows slots := by
  have store : (V.machine m).heap = V.store m.heap := rfl
  have closures : (V.store m.heap).closures.size = m.heap.closures.size := by simp [Veil.store]
  have threads : (V.machine m).threads.size = m.threads.size := by simp [Veil.machine]
  have frames : (V.machine m).frames = m.frames.map V.frame := rfl
  have held : (V.machine m).control.held = m.control.held := by
    show (V.control m.control).held = _
    cases m.control <;> rfl
  have active (i : Nat) : ((V.machine m).threads[i]?).any (fun t => t.status.isActive) =
      (m.threads[i]?).any fun t => t.status.isActive := by
    simp only [Veil.machine, Array.getElem?_map]
    cases m.threads[i]? with
    | none => rfl
    | some t =>
      cases status : t.status <;> simp [Veil.thread, Veil.status, status]
      rfl
  simp only [marking, finishAll_veil, things_veil, frames, held, active, threads, reachThread_veil]
  simp only [store, closures]
  rfl

theorem liveBytes_veil : (V.machine m).liveBytes = m.liveBytes := by
  have frames : (V.machine m).frames = m.frames.map V.frame := rfl
  simp only [liveBytes, frames, usedSlots_veil]
  rw [show (V.machine m).top = m.top from rfl, marking_veil]
  rfl

/-- The same is out of reach. -/
theorem swept_veil (slots : Nat) : (V.machine m).swept slots = m.swept slots := by
  have left (h : Heap) : (V.machine m).withHeap h = V.machine (m.withHeap h) := rfl
  simp only [swept, marking_veil, things_veil, left, finishAll_veil]
  rfl

/-- What is out of use is taken away alike. -/
theorem collected_veil : (V.machine m).collected = V.machine m.collected := by
  rw [collected, liveBytes_veil]
  simp only [collected, Veil.machine, ite_self]
  rfl

/-- Both sides take the bytes in use for too many alike. -/
theorem checked_veil : (V.machine m).checked = V.machine m.checked := by
  simp only [checked, collected_veil]
  split <;> split <;> first | rfl | contradiction

/-- Both sides have memory for the same things. -/
theorem charged?_veil (n : Nat) : (V.machine m).charged? n = (m.charged? n).map V.machine := by
  let enough (m : Machine) : Bool := m.heap.limit == 0 || m.heap.used + n ≤ m.heap.limit
  have counted : (V.machine m).charged? n =
      let m' := V.machine (if enough m then m else m.collected)
      if enough m' then some { m' with heap := m'.heap.charge n } else none := by
    simp only [charged?, collected_veil, ← apply_ite V.machine]
    rfl
  rw [counted, charged?, apply_ite (Option.map V.machine)]
  rfl

/-- A length is found alike. -/
@[simp] theorem lengthOf_veil (a : Activation) (target source : Nat) :
    (V.machine m).lengthOf (V.activation a) target source = V.machine (m.lengthOf a target source) := by
  simp only [lengthOf, reg_veil, toHeap_veil, callHandler_veil, raiseOperand_veil, withHeap_veil,
    setReg_veil, Veil.base_activation]
  split
  · rfl
  · simp only [apply_ite V.machine]
  · simp only [apply_ite V.machine]

/-- Values are ordered alike. -/
@[simp] theorem compareBy_veil (orEqual : Bool) (x y : Value) (expected : Bool) :
    (V.machine m).compareBy orEqual x y expected = V.machine (m.compareBy orEqual x y expected) := by
  simp only [compareBy, toHeap_veil, decideOn_veil, raiseText_veil, callHandler_veil]
  split
  · rfl
  · simp only [apply_ite V.machine]

@[simp] theorem raiseLoop_veil (what : String) (v : Value) :
    (V.machine m).raiseLoop what v = V.machine (m.raiseLoop what v) :=
  raiseText_veil V m _

theorem pc_veil (pc : Nat) : { V.machine m with pc } = V.machine { m with pc } := rfl

/-- A loop over numbers begins alike. -/
@[simp] theorem prepareLoop_veil (a : Activation) (r target : Nat) :
    (V.machine m).prepareLoop (V.activation a) r target = V.machine (m.prepareLoop a r target) := by
  simp only [prepareLoop, reg_veil, raiseText_veil, raiseLoop_veil, setReg_veil, pc_veil]
  split
  · split
    · rfl
    · split <;> rfl
  · split <;> rfl
  · rfl
  · split
    · rfl
    · rfl
    · simp only [apply_ite V.machine]

/-- It goes on alike. -/
@[simp] theorem stepLoop_veil (a : Activation) (r target : Nat) :
    (V.machine m).stepLoop (V.activation a) r target = V.machine (m.stepLoop a r target) := by
  simp only [stepLoop, reg_veil, setReg_veil, pc_veil]
  split
  · split
    · simp only [apply_ite V.machine]
    · rfl
  · split
    · simp only [apply_ite V.machine]
    · rfl
  · rfl

/-! ## Tables and functions -/

@[simp] theorem markClose_veil (a : Activation) (r : Nat) :
    (V.machine m).markClose (V.activation a) r = V.machine (m.markClose a r) := by
  simp only [markClose, reg_veil, toHeap_veil, here_veil]
  split
  · rfl
  · split <;> rfl

/-- Elements are written alike.  The induction is on their number. -/
@[simp] theorem storeElements_veil (table start index n : Nat) :
    (V.machine m).storeElements table start index n =
      V.machine (m.storeElements table start index n) := by
  induction n generalizing m start index with
  | zero => rfl
  | succ n ih => exact ih (m.withHeap _) _ _

@[simp] theorem growElements_veil (table size : Nat) :
    (V.machine m).growElements table size = V.machine (m.growElements table size) := by
  unfold growElements
  dsimp only
  rw [apply_ite V.machine]
  rfl

/-- Arguments without names are loaded alike. -/
@[simp] theorem loadExtra_veil (a : Activation) (target : Nat) (count : Option Nat) :
    (V.machine m).loadExtra (V.activation a) target count = V.machine (m.loadExtra a target count) := by
  simp only [loadExtra, Veil.base_activation, Veil.extra_activation, raiseText_veil, withSlots_veil,
    copySlots_veil, clearFrom_veil]
  split
  · rfl
  · split <;> rfl

/-- The induction is on the bound for the steps. -/
theorem concatenate_veil (target start count n : Nat) :
    (V.machine m).concatenate target start count n =
      V.machine (m.concatenate target start count n) := by
  induction n generalizing m count with
  | zero => rfl
  | succ n ih =>
    have frames : (V.machine m).frames = m.frames.map V.frame := rfl
    simp only [concatenate, slot_veil, setSlot_veil, joinableFrom_veil, charged?_veil, toHeap_veil,
      callHandler_veil, raiseOperand_veil, frames]
    split
    · rfl
    · split
      · cases charged : m.charged? (Heap.stringCost (Bytes.join ByteArray.empty
            (m.joinableFrom start count []))) with
        | none => rfl
        | some m' =>
          exact ih (m'.setSlot _ _) _
      · split
        · generalize m.frames = frames
          cases frames with
          | nil => rfl
          | cons f rest => cases f <;> rfl
        · rfl

/-- The variables of a new function are captured alike, one after the other. -/
theorem captureAll_veil (a : Activation) (sources : List CaptureSource) (cells : Array Nat) :
    captureAll (V.activation a) sources cells (V.machine m) =
      ((captureAll a sources cells m).1, V.machine (captureAll a sources cells m).2) := by
  induction sources generalizing m cells with
  | nil => rfl
  | cons s rest ih =>
    unfold captureAll
    rw [Veil.base_activation, Veil.cells_activation, capture_veil]
    split
    · exact ih _ _
    · exact ih _ _

/-- A new function has the same code on both sides, but for its notes. -/
theorem makeClosure_veil (a : Activation) (target k : Nat) :
    (V.machine m).makeClosure (V.activation a) target k = V.machine (m.makeClosure a target k) := by
  have children : (V.activation a).body.children[k]? = (a.body.children[k]?).map V.code := by
    simp [Veil.activation]
  simp only [makeClosure, children]
  cases a.body.children[k]? with
  | none => rfl
  | some f =>
    simp only [Option.map_some, Veil.code_captures, captureAll_veil]
    simp [Store.newClosure, Veil.machine, Veil.store, Veil.closure, setReg, setSlot]

/-- An instruction does the same on both sides of a veil. -/
theorem execute_veil (a : Activation) (i : Instr) :
    (V.machine m).execute (V.activation a) i = V.machine (m.execute a i) := by
  cases i with
  | getCaptured r u => simp only [execute, Veil.cells_activation, readCell_veil, setReg_veil]
  | setCaptured r u => simp only [execute, Veil.cells_activation, reg_veil, writeCell_veil]
  | getCapturedField r u k =>
    simp only [execute, Veil.cells_activation, readCell_veil, const_veil, fetch_veil]
  | setCapturedField u k v =>
    simp only [execute, Veil.cells_activation, readCell_veil, const_veil, operand_veil, store_veil]
  | newTable r fields elements => rfl
  | arith op r b c flipped =>
    simp only [execute, reg_veil, operand_veil, operate_veil, apply_ite V.machine]
  | negate r b =>
    simp only [execute, reg_veil, setReg_veil, toHeap_veil, raiseOperands_veil, callHandler_veil,
      Veil.base_activation]
    split
    · rfl
    · simp only [apply_ite V.machine]
  | complement r b =>
    simp only [execute, reg_veil, setReg_veil, toHeap_veil, raiseOperands_veil, callHandler_veil,
      raiseArith_veil, Veil.base_activation]
    split
    · split <;> rfl
    · simp only [apply_ite V.machine]
  | concat r n => exact concatenate_veil V m _ _ _ _
  | close r =>
    simp only [execute, Veil.base_activation, closeCells_veil, closeNext_veil]
    cases (m.closeCells (a.base + r)).closeNext (a.base + r) <;> rfl
  | jump target => rfl
  | compare op r b expected =>
    cases op with
    | eq =>
      simp only [execute, reg_veil, operand_veil, toHeap_veil, decideOn_veil, callHandler_veil]
      split <;> rfl
    | _ => simp only [execute, reg_veil, operand_veil, compareBy_veil]
  | testSet r b expected =>
    simp only [execute, reg_veil, setReg_veil, skip_veil, apply_ite V.machine]
    rfl
  | call r args results =>
    simp only [execute, Veil.base_activation, settle_veil, callSlots_veil]
    rfl
  | tailCall r args closing =>
    have closed : (if closing then (V.machine m).closeCells (V.activation a).base else V.machine m) =
        V.machine (if closing then m.closeCells a.base else m) := by
      rw [Veil.base_activation, closeCells_veil, apply_ite V.machine]
    simp only [execute, closed]
    generalize (if closing then m.closeCells a.base else m) = m'
    have top : (V.machine m).top = m.top := rfl
    have tail (m : Machine) : (V.machine m).frames.tail = m.frames.tail.map V.frame :=
      (List.map_tail).symm
    simp only [Veil.base_activation, Veil.start_activation, Veil.deliver_activation,
      Veil.depth_activation, slot_veil, copySlots_veil, settle_veil, callSlots_veil, top, tail]
    split
    · exact enter_veil V _ _ _ _ _ _ _
    · rfl
  | «return» r count closing =>
    have top (m : Machine) : (V.machine m).top = m.top := rfl
    have topped (m : Machine) (top : Nat) :
        { V.machine m with top } = V.machine { m with top } := rfl
    simp only [execute, Veil.base_activation, closeCells_veil, top, topped, closeNext_veil,
      leave_veil]
    split
    · cases closeNext _ a.base <;> rfl
    · rfl
  | iterPrep r target =>
    simp only [execute, markClose_veil, pc_veil]
  | iterCall r n =>
    simp only [execute, Veil.base_activation, copySlots_veil, callSlots_veil]
  | iterLoop r target =>
    simp only [execute, reg_veil, setReg_veil, pc_veil, apply_ite V.machine]
    rfl
  | setList r count offset =>
    have top : (V.machine m).top = m.top := rfl
    simp only [execute, Veil.base_activation, reg_veil, growElements_veil, storeElements_veil,
      settle_veil, top]
    split <;> rfl
  | closure r k => exact makeClosure_veil V m a r k
  | _ => simp [execute]

end Machine

end NpcDialog.Lua
