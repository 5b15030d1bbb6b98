import NpcDialog.Proofs.Machine.Keeps
import NpcDialog.Proofs.Machine.Slots

/-!
# Calls from their beginning to their end

Where the arguments of a call lie when the function begins: the named ones in its
first registers, the others in front of them.  And what can keep a call from going
on when it does nothing wrong: a stack or a memory that is too small.

* `Machine.Comes` — steps lead to where something holds, if there is room.
* `Machine.Site`, `Machine.callAt` — a call of a function of the program.
* `Machine.Entered` — a call that has just begun.
* `Machine.entered_callAt` — so it has, if there is room on the stack.
* `Machine.comes_counted` — the next instruction, if there is memory.
* `Machine.Stays` — what calls in the middle of an instruction leave as it is.
* `Machine.Leaving.backWith`, `Machine.comes_given` — the end of a call.
-/

namespace NpcDialog.Lua.Machine

open Bytes (ofText)

/-! ## Room -/

/-- There is not enough room to go on. -/
def Starved (m : Machine) : Prop :=
  m.control = .raise .memory ∨ ∃ place, m.control = .raise (.message place (ofText "stack overflow"))

/-- Steps lead to where something holds, or to where there is not enough room. -/
def Comes (run : Runner) (m : Machine) (v : Conversation) (P : Machine → Conversation → Prop) :
    Prop :=
  ∃ k m' v', Leads run k m v m' v' ∧ (m'.Starved ∨ P m' v')

namespace Comes

variable {run : Runner} {m m' : Machine} {v v' : Conversation} {P Q : Machine → Conversation → Prop}

theorem here (h : P m v) : Comes run m v P := ⟨0, m, v, .none m v, .inr h⟩

theorem starved (h : m.Starved) : Comes run m v P := ⟨0, m, v, .none m v, .inl h⟩

theorem after {k : Nat} (leads : Leads run k m v m' v') (h : Comes run m' v' P) :
    Comes run m v P := by
  obtain ⟨l, m'', v'', more, there⟩ := h
  exact ⟨k + l, m'', v'', leads.trans more, there⟩

theorem step (first : m.step run v = (.next m', v')) (h : Comes run m' v' P) : Comes run m v P :=
  after (.one first) h

theorem bind (h : Comes run m v P) (later : ∀ m' v', P m' v' → Comes run m' v' Q) :
    Comes run m v Q := by
  obtain ⟨k, m', v', leads, stuck | there⟩ := h
  · exact after leads (.starved stuck)
  · exact after leads (later m' v' there)

theorem imp (h : Comes run m v P) (weaker : ∀ m' v', P m' v' → Q m' v') : Comes run m v Q :=
  h.bind fun m' v' there => .here (weaker m' v' there)

end Comes

/-- There is memory enough to go on. -/
def HasMemory (m : Machine) : Prop := m.heap.limit = 0 ∨ m.heap.used ≤ m.heap.limit

/-- The things of a later machine are the same, but for the bytes in use. -/
def SameThings (m m' : Machine) : Prop := ∃ used, m'.heap = { m.heap with used }

theorem SameThings.trans {m m' m'' : Machine} (h : m.SameThings m') (h' : m'.SameThings m'') :
    m.SameThings m'' := by
  obtain ⟨used, same⟩ := h
  obtain ⟨used', same'⟩ := h'
  exact ⟨used', by rw [same', same]⟩

/-- The next instruction can be made, if there is memory for what was made before it:
the bytes in use may be counted anew. -/
theorem comes_counted {m : Machine} (control : m.control = .run) (run : Runner) (v : Conversation) :
    Comes run m v fun m' v' =>
      v' = v ∧ (∃ used drift, m' = { m with heap := { m.heap with used }, drift }) ∧
        m'.HasMemory := by
  by_cases counted : m.heap.limit = 0 ∨ m.heap.used ≤ m.heap.limit
  · exact .here ⟨rfl, ⟨m.heap.used, m.drift, rfl⟩, counted⟩
  · have beyond : (m.heap.limit != 0 && m.heap.limit < m.heap.used) = true := by
      simp only [Bool.and_eq_true, bne_iff_ne, decide_eq_true_eq]
      omega
    have step : m.step run v = (.next m.checked, v) := by
      rw [Machine.step, control]
      show (m.advance, v) = _
      rw [advance, if_pos beyond]
    refine .step step ?_
    unfold checked
    dsimp only
    split
    · next enough => exact .here ⟨rfl, ⟨_, _, rfl⟩, .inr enough⟩
    · exact .starved (.inl rfl)

/-! ## The beginning -/

/-- Where and from where a function is called: the slot in which it lies, the number of
arguments behind it, where the results go, the calls that wait, and how deep they are
nested. -/
structure Site where
  start : Nat
  count : Nat
  deliver : Deliver
  frames : List Frame
  depth : Nat

/-- The machine in which a call of a function of the program begins. -/
def callAt (m : Machine) (id : Nat) (s : Site) : Machine :=
  m.enter id s.start s.count s.deliver s.frames s.depth

/-- The arguments of a call. -/
def argsAt (m : Machine) (s : Site) : Args := ⟨m.valuesFrom (s.start + 1) s.count⟩

/-- A call with these arguments has just begun, above other frames.  The callee lay in
slot `start` of the machine `m₀`, and what is in front of the registers is still
there. -/
structure Entered (m₀ m : Machine) (a : Activation) (rest : List Frame) (start : Nat)
    (args : Array Value) : Prop where
  frames : m.frames = .lua a :: rest
  pc : m.pc = 0
  control : m.control = .run
  room : a.base + a.body.registers ≤ m.stack.size
  things : m₀.SameThings m
  extra : a.extra = if a.body.isVararg then args.size - a.body.params else 0
  behind : start + a.extra < a.base
  below : ∀ i < a.base, m.slot i = m₀.slot i
  named : ∀ i < a.body.params, m.slot (a.base + i) = args.getD i .nil
  others : ∀ i < a.extra, m₀.slot (a.base - 1 - a.extra + i) = args.getD (a.body.params + i) .nil

variable (m : Machine)

section Layout

variable (start n params : Nat) {registers : Nat} (fits : params ≤ registers)

/-- The machine with the arguments of a call in front of its registers, and the named
ones copied to these. -/
def copied (registers : Nat) : Machine :=
  ((m.withSlots (start + max n params + 2 + registers)).copySlots (start + 1)
    (start + max n params + 2) (min n params)).clearFrom (start + max n params + 2 + n) (params - n)

include fits

theorem slot_copied (i : Nat) : (m.copied start n params registers).slot i =
    if start + max n params + 2 ≤ i ∧ i < start + max n params + 2 + params then
      if i - (start + max n params + 2) < n then m.slot (start + 1 + (i - (start + max n params + 2)))
      else .nil
    else m.slot i := by
  have there := m.size_withSlots (start + max n params + 2 + registers)
  rw [copied, slot_clearFrom, slot_copySlots _ (by omega) (by omega), slot_withSlots, slot_withSlots]
  by_cases named : start + max n params + 2 ≤ i ∧ i < start + max n params + 2 + params
  · rw [if_pos named]
    by_cases given : i - (start + max n params + 2) < n
    · rw [if_pos given, if_neg (by omega), if_pos (by omega)]
    · rw [if_neg given, if_pos (by omega)]
  · rw [if_neg named, if_neg (by omega), if_neg (by omega)]

theorem below_copied {i : Nat} (below : i < start + max n params + 2) :
    (m.copied start n params registers).slot i = m.slot i := by
  rw [slot_copied m start n params fits, if_neg (by omega)]

theorem named_copied {i : Nat} (named : i < params) :
    (m.copied start n params registers).slot (start + max n params + 2 + i) =
      (m.valuesFrom (start + 1) n).getD i .nil := by
  rw [slot_copied m start n params fits, if_pos (by omega), getD_valuesFrom, Nat.add_sub_cancel_left]

end Layout

/-- A call begins with its arguments in their places, unless the stack is too small. -/
theorem entered_callAt {id : Nat} {c : Closure} (found : m.heap.closures[id]? = some c)
    (fits : c.code.params ≤ c.code.registers) (s : Site) :
    let e := m.callAt id s
    e.Starved ∨ ∃ a, Entered m e a s.frames s.start (m.argsAt s).values ∧ a.body = c.code ∧
      a.cells = c.cells ∧ a.deliver = s.deliver ∧ a.depth = s.depth := by
  obtain ⟨f, cells⟩ := c
  obtain ⟨start, n, deliver, frames, depth⟩ := s
  have argument (i : Nat) (given : i < n) :
      (m.valuesFrom (start + 1) n).getD i .nil = m.slot (start + 1 + i) := by
    rw [getD_valuesFrom, if_pos given]
  have count : (m.valuesFrom (start + 1) n).size = n := by simp [valuesFrom]
  simp only [callAt, argsAt, enter, found]
  split
  · exact .inl (.inr ⟨_, rfl⟩)
  · refine .inr ?_
    split
    · next vararg =>
      refine ⟨_, ⟨rfl, rfl, rfl, ?_, ?_, ?_, ?_, ?_, ?_, ?_⟩, rfl, rfl, rfl, rfl⟩
      · show _ ≤ (Machine.clearFrom _ _ _).stack.size
        rw [size_clearFrom, size_copySlots]
        exact size_withSlots _ _
      · refine ⟨m.heap.used + (Heap.callCost + Heap.elementCost * f.registers), ?_⟩
        show (Machine.clearFrom _ _ _).heap = _
        rw [clearFrom_eq, copySlots_eq, withSlots_eq]
        rfl
      · simp [vararg, count]
      · dsimp only
        omega
      · exact fun i lt => below_copied { m with heap := m.heap.charge _ } start n f.params fits lt
      · exact fun i named => named_copied { m with heap := m.heap.charge _ } start n f.params fits named
      · intro i other
        dsimp only at other ⊢
        rw [argument _ (by omega)]
        congr 1
        omega
    · next fixed =>
      refine ⟨_, ⟨rfl, rfl, rfl, ?_, ?_, ?_, ?_, ?_, ?_, ?_⟩, rfl, rfl, rfl, rfl⟩
      · show _ ≤ (Machine.clearFrom _ _ _).stack.size
        rw [size_clearFrom]
        exact size_withSlots _ _
      · refine ⟨m.heap.used + (Heap.callCost + Heap.elementCost * f.registers), ?_⟩
        show (Machine.clearFrom _ _ _).heap = _
        rw [clearFrom_eq, withSlots_eq]
        rfl
      · simp [fixed]
      · dsimp only
        omega
      · intro i lt
        show (Machine.clearFrom _ _ _).slot _ = _
        dsimp only at lt
        rw [slot_clearFrom, slot_withSlots, if_neg (by omega)]
        rfl
      · intro i named
        show (Machine.clearFrom _ _ _).slot _ = _
        dsimp only at named ⊢
        rw [slot_clearFrom, slot_withSlots, getD_valuesFrom]
        by_cases given : i < n
        · rw [if_neg (by omega), if_pos given]
          rfl
        · rw [if_pos (by omega), if_neg given]
      · intro i other
        dsimp only at other
        omega

/-! ## The middle -/

/-- A later machine in the middle of the same instruction. -/
structure Stays (m m' : Machine) : Prop where
  pc : m'.pc = m.pc
  frames : m'.heldFrames = m.heldFrames

theorem frames_of_held {m : Machine} {held : Activation} {rest : List Frame}
    (h : m.heldFrames = .lua held :: rest) : ∃ pc, m.frames = .lua { held with pc } :: rest := by
  unfold heldFrames at h
  split at h
  · next b others frames =>
    cases h
    exact ⟨b.pc, frames⟩
  · next other => exact ⟨held.pc, h⟩

namespace Stays

variable {m m' m'' : Machine} {run : Runner}

theorem of_eq (pc : m'.pc = m.pc) (frames : m'.frames = m.frames) : m.Stays m' :=
  ⟨pc, by rw [heldFrames, heldFrames, frames, pc]⟩

theorem refl (m : Machine) : m.Stays m := ⟨rfl, rfl⟩

theorem trans (h : m.Stays m') (h' : m'.Stays m'') : m.Stays m'' :=
  ⟨h'.pc.trans h.pc, h'.frames.trans h.frames⟩

theorem showing (m : Machine) (told : Bool) : m.Stays (m.showing told) := .of_eq rfl rfl

theorem closeCells (m : Machine) (floor : Nat) : m.Stays (m.closeCells floor) := by
  unfold Machine.closeCells
  split
  · exact .refl m
  · split
    · exact .refl m
    · exact .of_eq rfl rfl

/-- To note the place of an instruction twice is to note it once. -/
theorem held (pc : m'.pc = m.pc) (frames : m'.frames = m.heldFrames) : m.Stays m' := by
  refine ⟨pc, ?_⟩
  have twice : m'.heldFrames = { m with frames := m.heldFrames }.heldFrames := by
    rw [heldFrames, heldFrames, frames, pc]
  rw [twice]
  cases inside : m.frames with
  | nil => simp [heldFrames, inside]
  | cons f rest => cases f <;> simp [heldFrames, inside]

theorem nestedCall (start : Nat) (f : Value) (args : Array Value) (m : Machine) :
    Conversing.Ensures (fun answer => m.Stays answer.2) (Machine.nestedCall run start f args m) := by
  refine .bind (P := fun _ => True) (fun _ => trivial) fun answer _ => ?_
  obtain ⟨stop, m'⟩ := answer
  cases stop <;> exact .pure (.held rfl rfl)

/-- The induction is on the bound for the variables. -/
theorem closeAll (floor n : Nat) (fault : Option Value) (m : Machine) :
    Conversing.Ensures (fun answer => m.Stays answer.2)
      (Machine.closeAll run floor n fault m) := by
  induction n generalizing fault m with
  | zero => exact .pure (.refl m)
  | succ n ih =>
    simp only [Machine.closeAll]
    split
    · next s rest _ =>
      have popped : m.Stays { m with closers := rest } := .of_eq rfl rfl
      split
      · refine .bind (nestedCall _ _ _ _) fun answer stays => ?_
        obtain ⟨result, m'⟩ := answer
        have called := popped.trans stays
        cases result with
        | ok vs => exact fun v => called.trans (ih _ _ v)
        | error e => exact fun v => called.trans ((showing m' _).trans (ih _ _ v))
      · exact .pure (.refl m)
    · exact .pure (.refl m)

theorem attemptCall (start : Nat) (f : Value) (args : Array Value) (m : Machine) :
    Conversing.Ensures (fun answer => m.Stays answer.2) (Machine.attemptCall run start f args m) := by
  refine .bind (nestedCall _ _ _ _) fun answer stays => ?_
  obtain ⟨result, m'⟩ := answer
  cases result with
  | ok vs => exact .pure stays
  | error e =>
    refine .bind (closeAll _ _ _ _) fun answer closed => .pure ?_
    exact ((stays.trans (showing m' _)).trans (closeCells _ start)).trans closed

end Stays

/-! ## The end -/

/-- The innermost call `a` is about to end with these values, which lie from slot
`start` on. -/
structure Leaving (m : Machine) (a : Activation) (rest : List Frame) (start : Nat)
    (vs : Array Value) : Prop where
  frames : m.frames = .lua a :: rest
  control : m.control = .run
  memory : m.HasMemory
  room : start + vs.size ≤ m.stack.size
  values : ∀ i < vs.size, m.slot (start + i) = vs.getD i .nil

theorem heap_leave (m : Machine) (a : Activation) (start n : Nat) :
    (m.leave a start n).heap = m.heap := by
  unfold leave
  split
  · rfl
  · split
    · dsimp only
      rw [clearFrom_eq, copySlots_eq]
    · dsimp only
      rw [copySlots_eq]
    · unfold withFrames
      split <;> rfl

/-- A call from `s` has just ended with these results. -/
def EndedAt (m : Machine) (s : Site) (vs : Array Value) : Prop :=
  ∃ (x : Machine) (a : Activation) (start : Nat), x.Leaving a s.frames start vs ∧
    a.deliver = s.deliver ∧ a.depth = s.depth ∧ m = x.leave a start vs.size

/-- A function of the program that called it has all values of a call from slot
`target` on. -/
structure BackWith (m₀ m : Machine) (b : Activation) (frames : List Frame) (target : Nat)
    (vs : Array Value) : Prop where
  frames : m.frames = .lua b :: frames
  pc : m.pc = b.pc
  control : m.control = .run
  memory : m.HasMemory
  heap : m.heap = m₀.heap
  top : m.top = target + vs.size
  room : m.stack.size = m₀.stack.size
  below : ∀ i < target, m.slot i = m₀.slot i
  values : ∀ i < vs.size, m.slot (target + i) = vs.getD i .nil

/-- A call ends whose caller takes all values. -/
theorem Leaving.backWith {m : Machine} {a b : Activation} {frames : List Frame} {start target : Nat}
    {vs : Array Value} (h : m.Leaving a (.lua b :: frames) start vs)
    (deliver : a.deliver = .slots target none) (front : target ≤ start) :
    m.BackWith (m.leave a start vs.size) b frames target vs := by
  have room := h.room
  have slots := m.slot_copySlots_front front (by omega : target + vs.size ≤ m.stack.size)
  have left : m.leave a start vs.size = { m.copySlots start target vs.size with
      pc := b.pc, frames := .lua b :: frames, depth := a.depth, top := target + vs.size } := by
    unfold leave
    rw [h.frames]
    simp only [deliver]
  rw [left]
  refine ⟨rfl, rfl, ?_, ?_, ?_, rfl, size_copySlots _ _ _ _, ?_, ?_⟩
  · rw [copySlots_eq]
    exact h.control
  · rw [copySlots_eq]
    exact h.memory
  · rw [copySlots_eq]
  · intro i lt
    exact (slots i).trans (if_neg (by omega))
  · intro i lt
    refine (slots _).trans ?_
    rw [if_pos (by omega), Nat.add_sub_cancel_left, h.values i lt]

/-- All values of a built-in function that was called from slot `start` on have found
their place, and the caller goes on. -/
structure Given (m₀ m : Machine) (start : Nat) (vs : Array Value) : Prop where
  frames : m.frames = m₀.frames
  pc : m.pc = m₀.pc
  control : m.control = .run
  memory : m.HasMemory
  things : m₀.SameThings m
  top : m.top = start + vs.size
  room : start + vs.size ≤ m.stack.size
  size : m₀.stack.size ≤ m.stack.size
  below : ∀ i < start, m.slot i = m₀.slot i
  values : ∀ i < vs.size, m.slot (start + i) = vs.getD i .nil

theorem comes_given {m : Machine} {start : Nat} {vs : Array Value}
    (control : m.control = .give vs (.slots start none)) (run : Runner) (v : Conversation) :
    Comes run m v fun m' v' => v' = v ∧ m.Given m' start vs := by
  let placed := { m with control := .run }.withSlots (start + vs.size)
  have wide : placed = { m with control := .run, stack := placed.stack } := withSlots_eq _ _
  have room : start + vs.size ≤ placed.stack.size := size_withSlots _ _
  have more : m.stack.size ≤ placed.stack.size :=
    size_le_withSlots { m with control := .run } (start + vs.size)
  have same (i : Nat) : placed.slot i = m.slot i := slot_withSlots { m with control := .run } _ i
  have step : m.step run v = (.next { placed.putFrom start vs with top := start + vs.size }, v) := by
    rw [Machine.step, control]
    show (m.give vs (.slots start none), v) = _
    simp [give, clearFrom, placed]
  generalize placed = placed at wide room more same step
  have size := size_putFrom placed start vs
  have slots (i : Nat) := slot_putFrom placed room i
  have frames : placed.frames = m.frames := by rw [wide]
  have pc : placed.pc = m.pc := by rw [wide]
  have running : placed.control = .run := by rw [wide]
  have heap : placed.heap = m.heap := by rw [wide]
  refine .step step ((@comes_counted { placed.putFrom start vs with top := start + vs.size }
    running run v).imp ?_)
  rintro m' v' ⟨rfl, ⟨used, drift, rfl⟩, memory⟩
  refine ⟨rfl, frames, pc, running, memory, ⟨used, ?_⟩, rfl, ?_, ?_, ?_, ?_⟩
  · rw [← heap]
    rfl
  · exact Nat.le_trans room (Nat.le_of_eq size.symm)
  · exact Nat.le_trans more (Nat.le_of_eq size.symm)
  · intro i lt
    exact (slots i).trans ((if_neg (by omega)).trans (same i))
  · intro i lt
    refine (slots _).trans ?_
    rw [if_pos (by omega), Nat.add_sub_cancel_left]

end NpcDialog.Lua.Machine
