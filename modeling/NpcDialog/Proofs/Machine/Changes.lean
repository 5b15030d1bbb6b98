import Mathlib.Logic.Relation
import NpcDialog.Proofs.Machine.Related

/-!
# What a step changes

Most of what an instruction does concerns the running call only: its registers, the
tables, what is to be done next.  Little else ever changes, and always in one of a few
ways: calls begin and end, a variable on the stack is captured or gets a value of its
own, a captured variable is set, a function is made.  They are listed here once, so
that whatever is to be shown of all programs needs to be shown of these changes only.

* `Machine.core` — the rest of a machine, which most instructions leave alone.
* `Machine.Change` — the ways in which it changes.
* `Machine.changes_execute`, `Machine.changes_advance` — what an instruction changes.
-/

namespace NpcDialog.Lua

/-- The machine that a step leads to. -/
def Step.machine : Step → Machine
  | .next m => m
  | .stop _ m => m

end NpcDialog.Lua

namespace NpcDialog.Lua.Machine

open Bytes (ofText)

/-- A machine without what concerns only the running call, without the things that
built-in functions work on, and without the record of what was done with the process. -/
def core (m : Machine) : Machine :=
  { m with
    heap := m.heap.withHeap default
    codeBytes := 0, noteBytes := 0, drift := 0, deeds := [], stack := #[], top := 0, pc := 0
    closers := [], handler := none, depth := 0, control := .run }

/-! ## What concerns the running call only -/

variable (m : Machine)

@[simp] theorem core_raise (f : Fault) : (m.raise f).core = m.core := rfl

@[simp] theorem core_raiseText (text : Bytes) : (m.raiseText text).core = m.core := rfl

@[simp] theorem core_raiseOperand (before : Bytes) (o : Origin) (behind : Bytes) :
    (m.raiseOperand before o behind).core = m.core := rfl

@[simp] theorem core_setSlot (i : Nat) (v : Value) : (m.setSlot i v).core = m.core := rfl

/-- The stack may grow. -/
@[simp] theorem core_withSlots (n : Nat) : (m.withSlots n).core = m.core := by
  unfold withSlots
  split <;> rfl

@[simp] theorem core_putFrom (start : Nat) (vs : Array Value) :
    (m.putFrom start vs).core = m.core := rfl

/-- Slots may be cleared.  The induction is on their number. -/
@[simp] theorem core_clearFrom (start n : Nat) : (m.clearFrom start n).core = m.core := by
  induction n generalizing m start with
  | zero => rfl
  | succ n ih => simp [clearFrom, ih]

/-- Slots may be copied.  The induction is on their number. -/
@[simp] theorem core_copySlots (source target n : Nat) :
    (m.copySlots source target n).core = m.core := by
  induction n generalizing m source target with
  | zero => rfl
  | succ n ih => simp [copySlots, ih]

@[simp] theorem core_setReg (a : Activation) (r : Nat) (v : Value) :
    (m.setReg a r v).core = m.core := rfl

@[simp] theorem core_skip : m.skip.core = m.core := rfl

@[simp] theorem core_decideOn (b expected : Bool) : (m.decideOn b expected).core = m.core := by
  unfold decideOn
  split <;> rfl

@[simp] theorem core_settle (a : Activation) : (m.settle a).core = m.core := rfl

@[simp] theorem core_callHandler (f : Value) (args : Array Value) (deliver : Deliver) :
    (m.callHandler f args deliver).core = m.core := rfl

@[simp] theorem core_charge (n : Nat) : { m with heap := m.heap.charge n }.core = m.core := rfl

@[simp] theorem core_withHeap (h : Heap) : (m.withHeap h).core = m.core := rfl

theorem core_pc (pc : Nat) : { m with pc }.core = m.core := rfl

theorem core_depth (depth : Nat) : { m with depth }.core = m.core := rfl

theorem core_top (top : Nat) : { m with top }.core = m.core := rfl

/-- Which variables are to be closed is outside of the core. -/
theorem core_closeNext (floor : Nat) : ∀ m' ∈ m.closeNext floor, m'.core = m.core := by
  intro m' h
  unfold closeNext at h
  split at h
  · cases h
  · split at h
    · cases h
    · cases h
      rfl

/-- A field may be read, by a metamethod too, which is only called later. -/
@[simp] theorem core_fetch (a : Activation) (target : Nat) (object key : Value) (o : Origin) :
    (m.fetch a target object key o).core = m.core := by
  unfold fetch
  split <;> rfl

/-- A field may be written; tables are outside of the core. -/
@[simp] theorem core_store (object key value : Value) (o : Origin) :
    (m.store object key value o).core = m.core := by
  unfold store
  split
  · split <;> rfl
  all_goals rfl

@[simp] theorem core_raiseOperands (action : String) (x y : Value) (xo yo : Origin) :
    (m.raiseOperands action x y xo yo).core = m.core := rfl

@[simp] theorem core_raiseArith (e : ArithFault) (xo yo : Origin) :
    (m.raiseArith e xo yo).core = m.core := by
  cases e <;> rfl

@[simp] theorem core_operateOther (a : Activation) (op : Operator) (target : Nat) (x y : Value)
    (xo yo : Origin) : (m.operateOther a op target x y xo yo).core = m.core := by
  unfold operateOther
  dsimp only
  split <;> rfl

/-- An operator may be applied. -/
@[simp] theorem core_operate (a : Activation) (op : Operator) (target : Nat) (x y : Value)
    (xo yo : Origin) :
    (m.operate a op target x y xo yo).core = m.core := by
  unfold operate
  split
  · split <;> simp
  · simp

/-- Memory may be counted and taken. -/
theorem core_charged? (n : Nat) : ∀ m' ∈ m.charged? n, m'.core = m.core := by
  intro m' h
  simp only [charged?] at h
  split at h
  · cases h
    rfl
  · split at h
    · cases h
      rfl
    · cases h

/-- Values may be joined.  The induction is on their number. -/
@[simp] theorem core_concatenate (target start count n : Nat) :
    (m.concatenate target start count n).core = m.core := by
  induction n generalizing m count with
  | zero => rfl
  | succ n ih =>
    unfold concatenate
    dsimp only
    split
    · rfl
    · split
      · split
        · rfl
        · next m' charged => simp [ih, core_charged? m _ m' charged]
      · split <;> rfl

@[simp] theorem core_lengthOf (a : Activation) (target source : Nat) :
    (m.lengthOf a target source).core = m.core := by
  unfold lengthOf
  dsimp only
  split
  · rfl
  · split <;> rfl
  · split <;> rfl

@[simp] theorem core_compareBy (orEqual : Bool) (x y : Value) (expected : Bool) :
    (m.compareBy orEqual x y expected).core = m.core := by
  unfold compareBy
  split
  · simp
  · dsimp only
    generalize m.heap.binaryHandler x y (if orEqual then "__le" else "__lt") = handler
    split <;> rfl

@[simp] theorem core_raiseLoop (what : String) (v : Value) :
    (m.raiseLoop what v).core = m.core := rfl

@[simp] theorem core_prepareLoop (a : Activation) (r target : Nat) :
    (m.prepareLoop a r target).core = m.core := by
  unfold prepareLoop
  dsimp only
  split
  · split
    · rfl
    · split <;> rfl
  · split <;> rfl
  · rfl
  · split
    · rfl
    · rfl
    · split
      · rfl
      · split <;> split <;> simp [core_pc]

@[simp] theorem core_stepLoop (a : Activation) (r target : Nat) :
    (m.stepLoop a r target).core = m.core := by
  unfold stepLoop
  split
  · split
    · split <;> simp [core_pc]
    · rfl
  · split
    · dsimp only
      split <;> split <;> simp [core_pc]
    · rfl
  · rfl

@[simp] theorem core_markClose (a : Activation) (r : Nat) : (m.markClose a r).core = m.core := by
  unfold markClose
  dsimp only
  split
  · rfl
  · split <;> rfl

/-- Elements may be written.  The induction is on their number. -/
@[simp] theorem core_storeElements (table start index n : Nat) :
    (m.storeElements table start index n).core = m.core := by
  induction n generalizing m start index with
  | zero => rfl
  | succ n ih => rw [storeElements, ih, core_withHeap]

@[simp] theorem core_growElements (table size : Nat) :
    (m.growElements table size).core = m.core := by
  unfold growElements
  dsimp only
  split <;> rfl

@[simp] theorem core_loadExtra (a : Activation) (target : Nat) (count : Option Nat) :
    (m.loadExtra a target count).core = m.core := by
  unfold loadExtra
  dsimp only
  split
  · rfl
  · split
    · show (Machine.clearFrom _ _ _).core = _
      simp
    · simp

theorem core_control (control : Control) : { m with control }.core = m.core := rfl

/-! ## Changes -/

/-- A call is known if it is among those that wait, or calls a function that there is. -/
def Knows (m : Machine) (a : Activation) : Prop :=
  (∃ b, .lua b ∈ m.frames ∧ b.body = a.body ∧ b.cells = a.cells) ∨
    ⟨a.body, a.cells⟩ ∈ m.heap.closures

/-- One change. -/
inductive Change (m : Machine) : Machine → Prop
  /-- Calls begin or end, and else only what concerns the running call changes. -/
  | calls {m' : Machine} (frames : List Frame) (known : ∀ a, .lua a ∈ frames → m.Knows a)
    (same : m'.core = { m with frames }.core) : Change m m'
  /-- A variable on the stack is captured. -/
  | capture (slot : Nat) : Change m (m.capture slot).2
  /-- Captured variables get values of their own. -/
  | closeCells (floor : Nat) : Change m (m.closeCells floor)
  /-- A function sets a variable that it captures. -/
  | write {a : Activation} (active : .lua a ∈ m.frames) {r u : Nat}
    (code : .setCaptured r u ∈ a.body.code) (v : Value) :
    Change m (m.writeCell (a.cells.getD u 0) v)
  /-- A function makes an inner one. -/
  | make {a : Activation} (active : .lua a ∈ m.frames) {f : FunctionCode}
    (inner : f ∈ a.body.children) {cells : Array Nat}
    (known : ∀ c ∈ cells, c ∈ m.cells.map Prod.snd ∨ ∃ u, c = a.cells.getD u 0) :
    Change m { m with heap := (m.heap.newClosure ⟨f, cells⟩).2 }
  /-- A function is made of code from outside. -/
  | install (c : Chunk) (first : Value) : Change m (m.install c first).2

/-- Any number of changes. -/
abbrev Changes : Machine → Machine → Prop := Relation.ReflTransGen Change

/-- A change that keeps the core is one that makes no calls. -/
theorem Change.light {m m' : Machine} (same : m'.core = m.core) : Change m m' :=
  .calls m.frames (fun a mem => .inl ⟨a, mem, rfl, rfl⟩) same

namespace Changes

variable {m m' m'' : Machine}

/-- The same as a chain of one change. -/
theorem light (same : m'.core = m.core) : Changes m m' := .single (.light same)

/-- Changes before which only what concerns the running call has changed. -/
theorem after (same : m'.core = m.core) (changes : Changes m' m'') : Changes m m'' :=
  .head (.light same) changes

/-- Changes behind which only what concerns the running call changes. -/
theorem before (changes : Changes m m') (same : m''.core = m'.core) : Changes m m'' :=
  .tail changes (.light same)

end Changes

theorem frames_of_core {m m' : Machine} (same : m'.core = m.core) : m'.frames = m.frames := by
  show m'.core.frames = m.core.frames
  rw [same]

theorem cells_of_core {m m' : Machine} (same : m'.core = m.core) : m'.cells = m.cells := by
  show m'.core.cells = m.core.cells
  rw [same]

theorem threads_of_core {m m' : Machine} (same : m'.core = m.core) : m'.threads = m.threads := by
  show m'.core.threads = m.core.threads
  rw [same]

/-- What code is known depends on the core only. -/
theorem Knows.of_core {m m' : Machine} {a : Activation} (known : m.Knows a)
    (same : m'.core = m.core) : m'.Knows a := by
  have closures : m'.heap.closures = m.heap.closures := congrArg (·.heap.closures) same
  unfold Knows at known ⊢
  rwa [frames_of_core same, closures]

/-- All calls that wait are known, also where the place of the innermost one is noted. -/
theorem knows_heldFrames {a : Activation} (mem : .lua a ∈ m.heldFrames) : m.Knows a := by
  unfold heldFrames at mem
  split at mem
  · next b rest frames =>
    rw [List.mem_cons] at mem
    rcases mem with same | mem
    · cases same
      exact .inl ⟨b, by simp [frames], rfl, rfl⟩
    · exact .inl ⟨a, by simp [frames, mem], rfl, rfl⟩
  · exact .inl ⟨a, mem, rfl, rfl⟩

/-- The code of a frame that was there is known. -/
theorem knows_of_sublist {frames : List Frame} (sub : frames ⊆ m.frames) {a : Activation}
    (mem : .lua a ∈ frames) : m.Knows a := .inl ⟨a, sub mem, rfl, rfl⟩

theorem core_calls {m m' : Machine} (same : m'.core = m.core) (frames : List Frame) :
    { m' with frames }.core = { m with frames }.core :=
  congrArg (fun m : Machine => { m with frames }) same

theorem core_withFrames (frames : List Frame) :
    (m.withFrames frames).core = { m with frames }.core := by
  unfold withFrames
  split <;> rfl

/-- Some of the calls that wait have ended. -/
theorem changes_calls {m m' : Machine} {frames : List Frame} (sub : frames ⊆ m.frames)
    (same : m'.core = { m with frames }.core) : Changes m m' :=
  .single (.calls frames (fun _ mem => knows_of_sublist m sub mem) same)

/-- A function begins. -/
theorem changes_enter (id start n : Nat) (deliver : Deliver) {frames : List Frame} (depth : Nat)
    (known : ∀ a, .lua a ∈ frames → m.Knows a) :
    Changes m (m.enter id start n deliver frames depth) := by
  unfold enter
  split
  · exact Changes.light rfl
  · next f cells found =>
    have begun : ∀ b : Activation, b.body = f → b.cells = cells →
        ∀ a, .lua a ∈ .lua b :: frames → m.Knows a := by
      rintro b rfl rfl a (_ | ⟨_, mem⟩)
      · exact .inr (Array.mem_of_getElem? found)
      · exact known a mem
    dsimp only
    split
    · exact Changes.light rfl
    · split
      · exact .single (.calls _ (begun _ rfl rfl) (core_calls (by simp) _))
      · exact .single (.calls _ (begun _ rfl rfl) (core_calls (by simp) _))

/-- A call of a function of the program begins, or is what to do next. -/
theorem changes_callSlots (start n : Nat) (deliver : Deliver) :
    Changes m (m.callSlots start n deliver) := by
  unfold callSlots
  split
  · exact changes_enter m _ _ _ _ _ fun _ mem => knows_heldFrames m mem
  · exact Changes.light rfl

/-- The innermost call ends. -/
theorem changes_leave (a : Activation) (start n : Nat) : Changes m (m.leave a start n) := by
  unfold leave
  split
  · exact .refl
  · next frame rest frames =>
    have sub : rest ⊆ m.frames := by simp [frames]
    split
    · exact changes_calls sub (core_calls (by simp) _)
    · exact changes_calls sub (core_calls (by simp) _)
    · exact changes_calls sub (core_withFrames m _)

/-! ## Inner functions -/

/-- A slot that was captured is among the captured ones. -/
theorem mem_insertCell (slot id : Nat) (cells : List (Nat × Nat)) :
    id ∈ (insertCell slot id cells).map Prod.snd := by
  induction cells with
  | nil => simp [insertCell]
  | cons p rest ih =>
    unfold insertCell
    split
    · exact List.mem_cons_of_mem _ ih
    · exact List.mem_cons_self

/-- All slots that were captured before still are. -/
theorem subset_insertCell (slot id : Nat) (cells : List (Nat × Nat)) :
    cells ⊆ insertCell slot id cells := by
  induction cells with
  | nil => simp
  | cons p rest ih =>
    unfold insertCell
    split
    · exact List.cons_subset_cons _ ih
    · exact List.subset_cons_self _ _

/-- A captured variable that is noted is the new one or was noted before. -/
theorem mem_of_insertCell {slot id : Nat} {cells : List (Nat × Nat)} {i : Nat}
    (mem : i ∈ (insertCell slot id cells).map Prod.snd) : i = id ∨ i ∈ cells.map Prod.snd := by
  induction cells with
  | nil => simpa [insertCell] using mem
  | cons p rest ih =>
    unfold insertCell at mem
    split at mem
    · rcases List.mem_cons.1 mem with rfl | mem
      · exact .inr List.mem_cons_self
      · exact (ih mem).imp_right (List.mem_cons_of_mem _)
    · exact List.mem_cons.1 mem

/-- A captured variable that is found for a slot is noted. -/
theorem mem_of_cellOf {slot id : Nat} {cells : List (Nat × Nat)}
    (found : cellOf slot cells = some id) : id ∈ cells.map Prod.snd := by
  induction cells with
  | nil => cases found
  | cons p rest ih =>
    unfold cellOf at found
    split at found
    · cases found
      exact List.mem_cons_self
    · split at found
      · cases found
      · exact List.mem_cons_of_mem _ (ih found)

/-- The cell of a captured slot is among the captured ones, as are those from
before. -/
theorem captured_capture (slot : Nat) :
    (m.capture slot).1 ∈ (m.capture slot).2.cells.map Prod.snd ∧
      m.cells ⊆ (m.capture slot).2.cells ∧ (m.capture slot).2.frames = m.frames := by
  unfold capture
  split
  · next id found => exact ⟨mem_of_cellOf found, fun _ mem => mem, rfl⟩
  · exact ⟨mem_insertCell _ _ _, subset_insertCell _ _ _, rfl⟩

/-- What is captured for an inner function: variables on the stack, and variables that
the outer one has captured.  The induction is on the variables of the inner one. -/
theorem changes_captureAll (a : Activation) (sources : List CaptureSource) (cells : Array Nat)
    (known : ∀ c ∈ cells, c ∈ m.cells.map Prod.snd ∨ ∃ u, c = a.cells.getD u 0) :
    let made := captureAll a sources cells m
    Changes m made.2 ∧ made.2.frames = m.frames ∧
      ∀ c ∈ made.1, c ∈ made.2.cells.map Prod.snd ∨ ∃ u, c = a.cells.getD u 0 := by
  induction sources generalizing m cells with
  | nil => exact ⟨.refl, rfl, known⟩
  | cons s rest ih =>
    unfold captureAll
    split
    · obtain ⟨here, before, frames⟩ := captured_capture m (a.base + s.index)
      have known' : ∀ c ∈ cells.push (m.capture (a.base + s.index)).1,
          c ∈ (m.capture (a.base + s.index)).2.cells.map Prod.snd ∨
            ∃ u, c = a.cells.getD u 0 := by
        intro c mem
        rcases Array.mem_push.1 mem with mem | rfl
        · exact (known c mem).imp_left fun mem => List.map_subset _ before mem
        · exact .inl here
      obtain ⟨changes, same, all⟩ := ih _ _ known'
      exact ⟨.head (.capture _) changes, same.trans frames, all⟩
    · refine ih m _ fun c mem => ?_
      rcases Array.mem_push.1 mem with mem | rfl
      · exact known c mem
      · exact .inr ⟨_, rfl⟩

/-- A function makes an inner one. -/
theorem changes_makeClosure {a : Activation} (active : .lua a ∈ m.frames) (target k : Nat) :
    Changes m (m.makeClosure a target k) := by
  unfold makeClosure
  split
  · exact .refl
  · next f found =>
    obtain ⟨changes, frames, known⟩ := changes_captureAll m a f.captures.toList #[] (by simp)
    have still : .lua a ∈ (captureAll a f.captures.toList #[] m).2.frames := by rwa [frames]
    exact Changes.before (changes.tail (.make still (List.mem_of_getElem? found) known)) rfl

/-! ## Instructions -/

theorem core_closeOr (floor : Nat) : ((m.closeNext floor).getD m).core = m.core := by
  cases h : m.closeNext floor with
  | none => rfl
  | some m' => exact core_closeNext m floor m' h

theorem frames_closeCells (floor : Nat) : (m.closeCells floor).frames = m.frames := by
  unfold closeCells
  split
  · rfl
  · split <;> rfl

/-- What an instruction of the innermost function changes. -/
theorem changes_execute {a : Activation} {rest : List Frame} (active : m.frames = .lua a :: rest)
    {i : Instr} (code : i ∈ a.body.code) : Changes m (m.execute a i) := by
  have innermost : .lua a ∈ m.frames := by simp [active]
  cases i with
  | arith op r b c flipped =>
    simp only [execute]
    split <;> exact Changes.light (by simp)
  | negate r b =>
    simp only [execute]
    split
    · exact Changes.light (by simp)
    · split <;> exact Changes.light (by simp)
  | complement r b =>
    simp only [execute]
    split
    · split <;> exact Changes.light (by simp)
    · split <;> exact Changes.light (by simp)
  | setCaptured r u => exact .single (.write innermost code _)
  | close r => exact .head (.closeCells _) (Changes.light (core_closeOr _ _))
  | compare op r b expected =>
    cases op
    case eq =>
      simp only [execute]
      split <;> exact Changes.light (by simp)
    all_goals exact Changes.light (by simp [execute])
  | testSet r b expected =>
    simp only [execute]
    split <;> exact Changes.light (by simp)
  | call r args results => exact Changes.after (core_settle m a) (changes_callSlots _ _ _ _)
  | tailCall r args closing =>
    simp only [execute]
    have closed : Changes m (if closing then m.closeCells a.base else m) ∧
        (if closing then m.closeCells a.base else m).frames = m.frames := by
      split
      · exact ⟨.single (.closeCells _), frames_closeCells m _⟩
      · exact ⟨.refl, rfl⟩
    generalize (if closing then m.closeCells a.base else m) = m₁ at closed
    obtain ⟨closed, frames⟩ := closed
    refine closed.trans ?_
    split
    · next id _ =>
      refine Changes.after (core_copySlots m₁ (a.base + r) a.start _) (changes_enter _ _ _ _ _ _ ?_)
      intro b mem
      refine knows_of_sublist _ (List.tail_sublist _).subset ?_
      rwa [frames_of_core (core_copySlots m₁ _ _ _)] at mem ⊢
    · exact Changes.after (core_settle m₁ a) (changes_callSlots _ _ _ _)
  | «return» r count closing =>
    simp only [execute]
    split
    · refine .head (.closeCells a.base) (Changes.after (core_top _ (max (m.closeCells a.base).top
        (a.base + r + count.getD (m.top - (a.base + r))))) ?_)
      split
      · next waiting found => exact Changes.light (core_closeNext _ _ waiting found)
      · exact changes_leave _ _ _ _
    · exact changes_leave _ _ _ _
  | iterPrep r target => exact Changes.light (core_markClose m a (r + 3))
  | iterCall r n => exact Changes.after (core_copySlots m _ _ 3) (changes_callSlots _ _ _ _)
  | iterLoop r target =>
    simp only [execute]
    split <;> exact Changes.light rfl
  | setList r count offset =>
    simp only [execute]
    split <;> exact Changes.light (by simp)
  | closure r k => exact changes_makeClosure m innermost r k
  | newTable r fields elements => exact Changes.light rfl
  | jump target => exact Changes.light rfl
  | _ => exact Changes.light (by simp [execute])

/-! ## Steps without runs -/

/-- What becomes of the call of a built-in function. -/
theorem changes_concluded (o : Outcome) (start : Nat) (deliver : Deliver) (depth : Nat) :
    Changes m (m.concluded o start deliver depth).machine := by
  have pushed : ∀ f : Frame, (∀ a, f ≠ .lua a) → ∀ a, .lua a ∈ f :: m.heldFrames → m.Knows a := by
    rintro f other a (_ | ⟨_, mem⟩)
    · exact absurd rfl (other a)
    · exact knows_heldFrames m mem
  unfold concluded
  split
  case h_2 => exact .single (.calls _ (pushed _ (fun _ h => by cases h)) rfl)
  case h_3 => exact .single (.calls _ (pushed _ (fun _ h => by cases h)) rfl)
  case h_4 => split <;> exact Changes.light rfl
  all_goals exact Changes.light rfl

/-- At its end a protected call only takes frames away. -/
theorem changes_leaveProtected (p : Protection) {rest : List Frame} (sub : rest ⊆ m.frames)
    (vs : Array Value) : Changes m (m.leaveProtected p rest vs) :=
  changes_calls sub (core_withFrames m rest)

/-- Results that go on take frames away. -/
theorem changes_giveOnward (vs : Array Value) : Changes m (m.giveOnward vs).machine := by
  unfold giveOnward
  split
  · next p rest frames =>
    have sub : rest ⊆ m.frames := by simp [frames]
    split
    · exact changes_leaveProtected m p sub _
    · split
      · split
        · exact Changes.light rfl
        · exact changes_leaveProtected m p sub _
      · exact changes_leaveProtected m p sub _
  · next rest frames =>
    have sub : rest ⊆ m.frames := by simp [frames]
    exact changes_calls sub (core_withFrames m rest)
  · exact .refl

/-- Results find their place. -/
theorem changes_give (vs : Array Value) (deliver : Deliver) :
    Changes m (m.give vs deliver).machine := by
  unfold give
  cases deliver with
  | slots start wanted =>
    cases wanted <;> exact Changes.light (by simp [Step.machine, core_control, core_top])
  | onward => exact Changes.after (core_control m .run) (changes_giveOnward _ vs)
  | again top => exact Changes.light rfl
  | _ => exact Changes.light (by simp [Step.machine, core_control])

theorem core_checked : m.checked.core = m.core := by
  unfold checked
  dsimp only
  split <;> rfl

/-- The next instruction. -/
theorem changes_advance : Changes m m.advance.machine := by
  unfold advance
  split
  · exact Changes.light (core_checked m)
  · split
    · next a rest frames =>
      split
      · next i found =>
        refine Changes.after (core_pc m (m.pc + 1)) ?_
        exact changes_execute { m with pc := m.pc + 1 } frames (Array.mem_of_getElem? found)
      · exact .refl
    · exact .refl

end NpcDialog.Lua.Machine
