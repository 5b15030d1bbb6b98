import NpcDialog.Proofs.Machine.Keeps

/-!
# The function around a suspending callback

`next` is a small function of the program around the host's operation: it asks
the host first, and then suspends the coroutine that it runs in.  Its code is
followed here step by step from the moment at which it asks.  The host has been
told before it is known whether the coroutine can be suspended, so what follows
depends on one thing only, whether a call keeps the coroutine.

* `Leads` — so many steps of a run.
* `IsSuspender` — the code of the function.
* `Machine.Notifies` — the function is about to ask.
* `Machine.Notifies.leads`, `Machine.Notifies.stops`, `Machine.Notifies.fails` —
  what follows.
-/

namespace NpcDialog

open Lua

/-! ## Steps of a run -/

/-- So many steps of a run lead from one machine and conversation to another. -/
inductive Leads (run : Runner) : Nat → Machine → Conversation → Machine → Conversation → Prop where
  /-- No step was made. -/
  | none (m : Machine) (v : Conversation) : Leads run 0 m v m v
  /-- One more step at the beginning. -/
  | step {k : Nat} {m m' m'' : Machine} {v v' v'' : Conversation}
      (first : m.step run v = (.next m', v')) (rest : Leads run k m' v' m'' v'') :
      Leads run (k + 1) m v m'' v''

namespace Leads

variable {run : Runner} {k l : Nat} {m m' m'' : Machine} {v v' v'' : Conversation}

theorem one (h : m.step run v = (.next m', v')) : Leads run 1 m v m' v' := .step h (.none m' v')

theorem trans (h : Leads run k m v m' v') (h' : Leads run l m' v' m'' v'') :
    Leads run (k + l) m v m'' v'' := by
  induction h with
  | none m v => rwa [Nat.zero_add]
  | step first rest ih =>
    rw [Nat.add_right_comm]
    exact .step first (ih h')

/-- A run goes on from where its steps have led. -/
theorem loop_eq (h : Leads run k m v m' v') (n : Nat) :
    Machine.loop run (k + n) m v = Machine.loop run n m' v' := by
  induction h with
  | none m v => rw [Nat.zero_add]
  | step first rest ih =>
    rw [Nat.add_right_comm, Machine.loop, Conversing.bind_apply, first]
    exact ih

theorem keeps (hrun : Runner.Keeps Machine.Keeps run) (h : Leads run k m v m' v') : m.Keeps m' := by
  induction h with
  | none m v => exact .refl m
  | @step _ m m' _ v _ _ first rest ih =>
    have seated := Machine.bracketed_keeps.step hrun m v
    rw [first] at seated
    exact seated.keeps.trans ih

end Leads

/-! ## The code -/

/-- The instructions of the function around a suspending callback. -/
def suspenderCode : Array Instr := #[
  .varargPrep 0, .getCaptured 0 0, .vararg 1 none, .call 0 none (some 1), .test 0 false, .jump 9,
  .getCaptured 0 1, .tailCall 0 (some 0) false, .return 0 none false, .return 0 (some 0) false]

/-- The code is that of the function around a suspending callback. -/
structure IsSuspender (f : FunctionCode) : Prop where
  code : f.code = suspenderCode
  registers : f.registers = 2

/-- The conversation after the host took note that the player may advance. -/
def Conversation.notified (v : Conversation) (s : InteractionScope) : Conversation :=
  (v.tell (.line (.called .advance s.entity s.session s.context))).tell
    (.event ⟨s.session, s.entity, .advance⟩)

namespace Lua.Machine

/-- The function around a suspending callback is innermost, in the call `a`.  There is
memory enough to go on, so that nothing is counted anew before it suspends. -/
structure InSuspender (m : Machine) (a : Activation) (rest : List Frame) : Prop where
  frames : m.frames = .lua a :: rest
  body : IsSuspender a.body
  memory : m.heap.limit = 0 ∨ m.heap.used ≤ m.heap.limit

/-- It is about to ask the host to let the player advance. -/
structure Notifies (m : Machine) (a : Activation) (rest : List Frame) : Prop
    extends InSuspender m a rest where
  control : m.control = .run
  pc : m.pc = 3
  notify : m.slot a.base = .builtin (.host .advance)
  yield : m.heap.cells[a.cells.getD 1 0]? = some (.closed (.builtin .coYield))

/-- The machine in which it has asked and calls what suspends the coroutine. -/
def yielding (m : Machine) (a : Activation) : Machine :=
  { m with
    pc := 8, top := a.base + 2
    stack := (m.stack.setIfInBounds a.base (.bool true)).setIfInBounds a.base (.builtin .coYield)
    control := .call (.builtin .coYield) #[] a.base (.slots a.base none) false }

/-- A step that makes the next instruction of the innermost function, with memory
enough to go on. -/
theorem step_execute {m : Machine} {a : Activation} {rest : List Frame} {i : Instr}
    (frames : m.frames = .lua a :: rest) (control : m.control = .run)
    (memory : m.heap.limit = 0 ∨ m.heap.used ≤ m.heap.limit) (code : a.body.code[m.pc]? = some i)
    (run : Runner) (v : Conversation) :
    m.step run v = (.next ({ m with pc := m.pc + 1 }.execute a i), v) := by
  have counted : ¬ (m.heap.limit != 0 && m.heap.limit < m.heap.used) = true := by
    simp only [Bool.and_eq_true, bne_iff_ne, decide_eq_true_eq]
    omega
  have stepped : m.step run v = (m.advance, v) := by
    rw [step, control]
    rfl
  rw [stepped, advance, if_neg counted, frames]
  simp only [code]

/-- A step that calls a built-in function, one of the program's own calls. -/
theorem step_builtin {run : Runner} {m m' : Machine} {v v' : Conversation} {b : Builtin}
    {args : Array Value} {start : Nat} {deliver : Deliver} {o : Outcome}
    (control : m.control = .call (.builtin b) args start deliver false)
    (performed : perform run (.builtin b) start (b.routine none args) { m with control := .run } v =
      ((o, m'), v')) :
    m.step run v = (m'.concluded o start deliver m.depth, v') := by
  rw [step, control]
  show ((perform run (.builtin b) start (b.routine none args) { m with control := .run } >>=
    fun answer => pure (answer.2.concluded answer.1 start deliver m.depth)) : Conversing Step) v = _
  rw [Conversing.bind_apply, performed]
  rfl

theorem perform_host (run : Runner) (callee : Value) (start : Nat) (c : Callback)
    (args : Array Value) (k : Bool → Routine) (m : Machine) (v : Conversation) :
    perform run callee start (.host c args k) m v =
      perform run callee start (k (m.invoke c args v).1) m (m.invoke c args v).2 := rfl

/-- One result finds its place in a slot that is there. -/
theorem give_one {m : Machine} {start : Nat} (there : start < m.stack.size) (x : Value) :
    m.give #[x] (.slots start (some 1)) = .next ({ m with control := .run }.setSlot start x) := by
  have room : start + 1 ≤ m.stack.size := there
  simp [give, withSlots, putFrom, clearFrom, setSlot, room]

/-- The host takes note that the player may advance, and says that the script is to
suspend. -/
theorem step_host (run : Runner) {m : Machine} {v : Conversation} {s : InteractionScope}
    {args : Array Value} {start : Nat} {deliver : Deliver} (scope : m.scope? v = some s)
    (control : m.control = .call (.builtin (.host .advance)) args start deliver false) :
    m.step run v = (.next { m with control := .give #[.bool true] deliver }, v.notified s) := by
  have asked : Machine.invoke { m with control := .run } .advance args v = (true, v.notified s) :=
    invoke_of_some scope .advance args
  have performed : perform run (.builtin (.host .advance)) start
      ((Builtin.host .advance).routine none args) { m with control := .run } v =
      ((.ended (.results #[.bool true]), { m with control := .run }), v.notified s) := by
    show perform run _ start (.host .advance args fun b => .done (.results #[.bool b])) _ v = _
    rw [perform_host, asked]
    rfl
  exact step_builtin control performed

/-- A call of what suspends the coroutine, where it can be suspended. -/
theorem step_yield (run : Runner) {m : Machine} (v : Conversation) {start : Nat} {deliver : Deliver}
    (control : m.control = .call (.builtin .coYield) #[] start deliver false) (free : m.held = 0) :
    m.step run v = (.stop (.suspended #[] deliver) { m with control := .run }, v) := by
  have performed : perform run (.builtin .coYield) start (Builtin.coYield.routine none #[])
      { m with control := .run } v = ((.ended (.suspend #[]), { m with control := .run }), v) := rfl
  rw [step_builtin control performed]
  simp [concluded, free]

/-- A call of what suspends the coroutine, where a call keeps it. -/
theorem step_yield_kept (run : Runner) {m : Machine} (v : Conversation) {start : Nat}
    {deliver : Deliver}
    (control : m.control = .call (.builtin .coYield) #[] start deliver false) (kept : m.held ≠ 0) :
    m.step run v = (.next (m.raise (.located none m.heldText)), v) := by
  have performed : perform run (.builtin .coYield) start (Builtin.coYield.routine none #[])
      { m with control := .run } v = ((.ended (.suspend #[]), { m with control := .run }), v) := rfl
  rw [step_builtin control performed]
  simp [concluded, kept, raise, heldText]

theorem valuesFrom_zero (m : Machine) (start : Nat) : m.valuesFrom start 0 = #[] := by
  simp [valuesFrom]

theorem slot_setSlot (m : Machine) {i : Nat} (there : i < m.stack.size) (x : Value) :
    (m.setSlot i x).slot i = x := by
  simp [slot, setSlot, Array.getD, there]

namespace InSuspender

variable {m : Machine} {a : Activation} {rest : List Frame} (h : m.InSuspender a rest)
include h

/-- The next instruction. -/
theorem step_eq (run : Runner) (v : Conversation) {i : Instr} (control : m.control = .run)
    (code : suspenderCode[m.pc]? = some i) :
    m.step run v = (.next ({ m with pc := m.pc + 1 }.execute a i), v) :=
  step_execute h.frames control h.memory (by rw [h.body.code, code]) run v

/-- The script is to suspend. -/
theorem tests (run : Runner) (v : Conversation) (control : m.control = .run) (pc : m.pc = 4)
    (answer : m.slot a.base = .bool true) : m.step run v = (.next { m with pc := 6 }, v) := by
  have code : suspenderCode[m.pc]? = some (.test 0 false) := by rw [pc]; rfl
  rw [h.step_eq run v control code, pc]
  show (Step.next (decideOn _ (m.slot a.base).isTrue false), v) = _
  rw [answer]
  rfl

/-- A function that it has captured is loaded. -/
theorem loads (run : Runner) (v : Conversation) (control : m.control = .run) {pc u : Nat}
    (at_ : m.pc = pc) (code : suspenderCode[pc]? = some (.getCaptured 0 u)) {x : Value}
    (captured : m.heap.cells[a.cells.getD u 0]? = some (.closed x)) :
    m.step run v = (.next ({ m with pc := pc + 1 }.setSlot a.base x), v) := by
  subst at_
  have found : ({ m with pc := m.pc + 1 }).readCell (a.cells.getD u 0) = x := by
    unfold readCell
    rw [captured]
  rw [h.step_eq run v control code]
  show (Step.next (setReg _ a 0 (readCell _ _)), v) = _
  rw [found]
  rfl

/-- What suspends the coroutine is called. -/
theorem calls (run : Runner) (v : Conversation) (control : m.control = .run) (pc : m.pc = 7)
    (callee : m.slot a.base = .builtin .coYield) :
    m.step run v = (.next { m with
      pc := 8, top := a.base + 2
      control := .call (.builtin .coYield) #[] a.base (.slots a.base none) false }, v) := by
  have code : suspenderCode[m.pc]? = some (.tailCall 0 (some 0) false) := by rw [pc]; rfl
  rw [h.step_eq run v control code, pc]
  have callee' : ({ m with pc := 8 }).slot (a.base + 0) = .builtin .coYield := callee
  have settled : ({ m with pc := 8 }.settle a).slot (a.base + 0) = .builtin .coYield := callee
  simp only [execute, callSlots, if_false, Bool.false_eq_true]
  rw [callee']
  simp only
  rw [settled]
  simp only [settle, h.body.registers, Option.getD_some, valuesFrom_zero]
  rfl

/-- The call ends without results. -/
theorem returns (run : Runner) (v : Conversation) (control : m.control = .run) (pc : m.pc = 8)
    (top : m.top = a.base) : m.step run v = (.next ({ m with pc := 9 }.leave a a.base 0), v) := by
  have code : suspenderCode[m.pc]? = some (.return 0 none false) := by rw [pc]; rfl
  rw [h.step_eq run v control code, pc]
  simp only [execute, Bool.false_eq_true, if_false, Option.getD_none, top, Nat.add_zero,
    Nat.sub_self]

end InSuspender

namespace Notifies

variable {m : Machine} {a : Activation} {rest : List Frame} (h : m.Notifies a rest)
include h

theorem base_lt : a.base < m.stack.size := by
  refine Decidable.byContradiction fun out => ?_
  have nothing : m.slot a.base = .nil := by simp [slot, Array.getD, out]
  rw [h.notify] at nothing
  cases nothing

/-- The host is called. -/
theorem asks (run : Runner) (v : Conversation) :
    m.step run v = (.next { m with
      pc := 4, top := a.base + 2
      control := .call (.builtin (.host .advance))
        (m.valuesFrom (a.base + 1) (m.top - (a.base + 1)))
        a.base (.slots a.base (some 1)) false }, v) := by
  have code : suspenderCode[m.pc]? = some (.call 0 none (some 1)) := by rw [h.pc]; rfl
  rw [h.step_eq run v h.control code, h.pc]
  have callee : ({ m with pc := 4 }.settle a).slot a.base = .builtin (.host .advance) := h.notify
  simp only [execute, callSlots, Nat.add_zero]
  rw [callee]
  simp only [settle, h.body.registers]
  rfl

/-- Six steps later the host has taken note, and the coroutine is to be
suspended. -/
theorem leads (run : Runner) {v : Conversation} {s : InteractionScope}
    (scope : m.scope? v = some s) :
    Leads run 6 m v (m.yielding a) (v.notified s) := by
  have there := h.base_lt
  let asking : Machine := { m with
    pc := 4, top := a.base + 2
    control := .call (.builtin (.host .advance)) (m.valuesFrom (a.base + 1) (m.top - (a.base + 1)))
      a.base (.slots a.base (some 1)) false }
  let answering : Machine := { asking with control := .give #[.bool true] (.slots a.base (some 1)) }
  let answered : Machine := { asking with control := .run }.setSlot a.base (.bool true)
  let loading : Machine := { answered with pc := 6 }
  let loaded : Machine := { answered with pc := 7 }.setSlot a.base (.builtin .coYield)
  have noted : asking.step run v = (.next answering, v.notified s) :=
    step_host (m := asking) run scope rfl
  have given : answering.step run (v.notified s) = (.next answered, v.notified s) := by
    show (answering.give #[.bool true] (.slots a.base (some 1)), v.notified s) = _
    rw [give_one (m := answering) there]
  have still : answered.InSuspender a rest := ⟨h.frames, h.body, h.memory⟩
  have room : a.base < answered.stack.size := by simpa [answered, setSlot] using there
  have tested := still.tests run (v.notified s) rfl rfl
    (slot_setSlot { asking with control := .run } there _)
  have stillLoading : loading.InSuspender a rest := ⟨h.frames, h.body, h.memory⟩
  have fetched := stillLoading.loads run (v.notified s) rfl rfl rfl h.yield
  have stillLoaded : loaded.InSuspender a rest := ⟨h.frames, h.body, h.memory⟩
  have called := stillLoaded.calls run (v.notified s) rfl rfl
    (slot_setSlot { answered with pc := 7 } room _)
  have suspending := Leads.step given (.step tested (.step fetched (.one called)))
  exact .step (h.asks run v) (.step noted suspending)

end Notifies

/-! ## What follows from it -/

/-- The machine in which the coroutine is suspended inside the call `a`. -/
def waiting (m : Machine) (a : Activation) : Machine := { m.yielding a with control := .run }

/-- A run, with so many levels below it, comes to where the host is asked, in the
scope `s`. -/
structure Asks (n : Nat) (m₀ : Machine) (v₀ : Conversation) (m : Machine) (v : Conversation)
    (a : Activation) (rest : List Frame) (s : InteractionScope) : Prop where
  /-- Some steps lead there, and the run is not given up before the call is over. -/
  leads : ∃ k, k + 7 ≤ stepBudget ∧ Leads (runWithin n) k m₀ v₀ m v
  /-- The function is about to ask. -/
  notifies : m.Notifies a rest
  /-- The handles are in place. -/
  scope : m.scope? v = some s

namespace Asks

variable {n : Nat} {m₀ m : Machine} {v₀ v : Conversation} {a : Activation} {rest : List Frame}
variable {s : InteractionScope} (h : Asks n m₀ v₀ m v a rest s)
include h

theorem keeps : m₀.Keeps m := by
  obtain ⟨k, _, leads⟩ := h.leads
  exact leads.keeps (keeps_runWithin n)

/-- A run in which no call keeps the coroutine ends there. -/
theorem stops (free : m₀.held = 0) :
    runWithin (n + 1) m₀ v₀ =
      ((.suspended #[] (.slots a.base none), m.waiting a), v.notified s) := by
  obtain ⟨k, enough, leads⟩ := h.leads
  have asked := leads.trans (h.notifies.leads (runWithin n) h.scope)
  have held : (m.yielding a).held = 0 := h.keeps.held.trans free
  have last := step_yield (runWithin n) (v.notified s) rfl held
  have budget : stepBudget = (k + 6) + ((stepBudget - (k + 7)) + 1) := by omega
  rw [runWithin, budget, asked.loop_eq, loop, Conversing.bind_apply, last]
  rfl

/-- A run in which a call keeps the coroutine goes on with a fault. -/
theorem fails (kept : m₀.held ≠ 0) :
    ∃ k, Leads (runWithin n) k m₀ v₀ ((m.yielding a).raise (.located none m.heldText))
      (v.notified s) := by
  obtain ⟨k, enough, leads⟩ := h.leads
  have asked := leads.trans (h.notifies.leads (runWithin n) h.scope)
  have held : (m.yielding a).held ≠ 0 := fun none => kept (h.keeps.held.symm.trans none)
  exact ⟨_, asked.trans (.one (step_yield_kept (runWithin n) (v.notified s) rfl held))⟩

end Asks

end Lua.Machine

end NpcDialog
