import NpcDialog.Proofs.Machine.Calls
import NpcDialog.Proofs.Machine.Related

/-!
# Calls of callbacks

What the machine does when a program calls a callback.  A call of the operation itself is
one step.  A call of the function around a suspending one is followed here from its
beginning to where it asks the host, and on to its end if the host declines; otherwise it
calls what suspends the coroutine, and ends with what is given to it when it goes on.

* `Machine.step_callback` — a call of the operation.
* `FunctionCode.Wraps`, `Machine.IsWrapper` — the function around a suspending one.
* `Machine.comes_notifies` — its calls come to where it asks.
* `Machine.Notifies.declined`, `Machine.Notifies.accepted` — what follows.
-/

namespace NpcDialog

open Lua

/-- The code is that of the function around a suspending callback, which takes any
number of arguments. -/
structure Lua.FunctionCode.Wraps (f : FunctionCode) : Prop extends IsSuspender f where
  params : f.params = 0
  vararg : f.isVararg = true

instance (f : FunctionCode) : Decidable f.Wraps :=
  decidable_of_iff ((f.code = suspenderCode ∧ f.registers = 2) ∧ f.params = 0 ∧ f.isVararg = true)
    ⟨fun ⟨⟨code, registers⟩, params, vararg⟩ => ⟨⟨code, registers⟩, params, vararg⟩,
      fun ⟨⟨code, registers⟩, params, vararg⟩ => ⟨⟨code, registers⟩, params, vararg⟩⟩

namespace Lua.Machine

/-! ## Calls of the operation -/

/-- The machine refuses a call that a library function makes: too many are in the middle
of others. -/
def IsTooDeep (m : Machine) (nested : Bool) : Prop :=
  nested = true ∧ (m.depth + 1 = depthBound ∨ handlingBound ≤ m.depth + 1)

/-- A call that is refused fails, and nothing else happens. -/
theorem step_tooDeep {m : Machine} {f : Value} {args : Array Value} {start : Nat}
    {deliver : Deliver} {nested : Bool} (control : m.control = .call f args start deliver nested)
    (deep : m.IsTooDeep nested) (run : Runner) (v : Conversation) :
    ∃ m' f, m.step run v = (.next m', v) ∧ m'.control = .raise f := by
  obtain ⟨rfl, deep⟩ := deep
  rw [step, control]
  show ∃ m' f, begin run { m with control := .run } _ args start deliver true v = (.next m', v) ∧ _
  unfold begin
  by_cases bound : m.depth + 1 = depthBound
  · rw [if_pos (by simpa using bound)]
    exact ⟨_, _, rfl, rfl⟩
  · rw [if_neg (by simpa using bound), if_pos (by simpa using deep.resolve_left bound)]
    exact ⟨_, _, rfl, rfl⟩

/-- A call of a callback gives back whether the script is to suspend, and nothing else
happens in the machine. -/
theorem step_callback {m : Machine} {c : Callback} {args : Array Value} {start : Nat}
    {deliver : Deliver} {nested : Bool}
    (control : m.control = .call (.builtin (.host c)) args start deliver nested)
    (shallow : ¬ m.IsTooDeep nested) (run : Runner) (v : Conversation) :
    m.step run v = (.next { m with control := .give #[.bool (m.invoke c args v).1] deliver },
      (m.invoke c args v).2) := by
  have bound : ¬ (nested && m.depth + 1 == depthBound) = true := fun deep => by
    simp only [Bool.and_eq_true, beq_iff_eq] at deep
    exact shallow ⟨deep.1, .inl deep.2⟩
  have handling : ¬ (nested && handlingBound ≤ m.depth + 1) = true := fun deep => by
    simp only [Bool.and_eq_true, decide_eq_true_eq] at deep
    exact shallow ⟨deep.1, .inr deep.2⟩
  rw [step, control]
  show begin run { m with control := .run } (.builtin (.host c)) args start deliver nested v = _
  unfold begin
  rw [if_neg bound, if_neg handling]
  rfl

/-! ## Calls of the function around it -/

/-- A function of the machine is the one around the callback that lets the player
advance, and has captured what suspends a coroutine. -/
structure IsWrapper (m : Machine) (id : Nat) (c : Closure) : Prop where
  found : m.heap.closures[id]? = some c
  wraps : c.code.Wraps
  notify : m.heap.cells[c.cells.getD 0 0]? = some (.closed (.builtin (.host .advance)))
  yield : m.heap.cells[c.cells.getD 1 0]? = some (.closed (.builtin .coYield))

variable {m : Machine}

namespace InSuspender

variable {a : Activation} {rest : List Frame} (h : m.InSuspender a rest)
include h

/-- All arguments are to be handed on, unless the stack is too small for them. -/
theorem spreads (run : Runner) (v : Conversation) (control : m.control = .run) (pc : m.pc = 2)
    (notify : m.slot a.base = .builtin (.host .advance)) (apart : a.extra < a.base) :
    ∃ m', m.step run v = (.next m', v) ∧ (m'.Starved ∨ m'.InSuspender a rest ∧ m'.control = .run ∧
      m'.pc = 3 ∧ m'.slot a.base = .builtin (.host .advance) ∧ m'.heap = m.heap) := by
  have code : suspenderCode[m.pc]? = some (.vararg 1 none) := by rw [pc]; rfl
  have step : m.step run v = (.next ({ m with pc := 3 }.loadExtra a 1 none), v) := by
    rw [h.step_eq run v control code, pc]
    rfl
  refine ⟨_, step, ?_⟩
  simp only [loadExtra, Option.getD_none, Option.isNone_none, if_true, Nat.min_self, Nat.sub_self,
    clearFrom]
  split
  · exact .inl (.inr ⟨_, rfl⟩)
  · have there := size_withSlots { m with pc := 3 } (a.base + 1 + a.extra)
    have slot : (({ m with pc := 3 }.withSlots (a.base + 1 + a.extra)).copySlots (a.base - 1 - a.extra)
        (a.base + 1) a.extra).slot a.base = m.slot a.base := by
      rw [slot_copySlots _ (by omega) there, if_neg (by omega), slot_withSlots]
      rfl
    rw [withSlots_eq] at slot ⊢
    rw [copySlots_eq] at slot ⊢
    exact .inr ⟨⟨h.frames, h.body, h.memory⟩, control, rfl, slot.trans notify, rfl⟩

/-- The script is not to suspend. -/
theorem passes (run : Runner) (v : Conversation) (control : m.control = .run) (pc : m.pc = 4)
    (answer : m.slot a.base = .bool false) : Leads run 2 m v { m with pc := 9 } v := by
  have code : suspenderCode[m.pc]? = some (.test 0 false) := by rw [pc]; rfl
  have tested : m.step run v = (.next { m with pc := 5 }, v) := by
    rw [h.step_eq run v control code, pc]
    show (Step.next (decideOn _ (m.slot a.base).isTrue false), v) = _
    rw [answer]
    rfl
  have still : InSuspender { m with pc := 5 } a rest := ⟨h.frames, h.body, h.memory⟩
  exact .step tested (.one (still.step_eq run v control rfl))

end InSuspender

/-- A call of the function comes to where it asks the host. -/
theorem comes_notifies {id : Nat} {c : Closure} (h : m.IsWrapper id c) (s : Site) (run : Runner)
    (v : Conversation) : Comes run (m.callAt id s) v fun y w => w = v ∧ m.SameThings y ∧
      ∃ a, y.Notifies a s.frames ∧ a.deliver = s.deliver ∧ a.depth = s.depth := by
  have fits : c.code.params ≤ c.code.registers := by
    rw [h.wraps.params]
    exact Nat.zero_le _
  rcases m.entered_callAt h.found fits s with
    starved | ⟨a, entered, body, captured, delivers, deep⟩
  · exact .starved starved
  generalize m.callAt id s = e at entered
  refine (comes_counted entered.control run v).bind ?_
  rintro e' v ⟨rfl, ⟨used, drift, rfl⟩, memory⟩
  have things : m.SameThings { e with heap := { e.heap with used }, drift } := entered.things.trans ⟨used, rfl⟩
  have inside : InSuspender { e with heap := { e.heap with used }, drift } a s.frames :=
    ⟨entered.frames, body ▸ h.wraps.toIsSuspender, memory⟩
  have control : Machine.control { e with heap := { e.heap with used }, drift } = .run := entered.control
  have pc : Machine.pc { e with heap := { e.heap with used }, drift } = 0 := entered.pc
  have room : a.base < Array.size (stack { e with heap := { e.heap with used }, drift }) := by
    have room : a.base + a.body.registers ≤ e.stack.size := entered.room
    rw [body, h.wraps.registers] at room
    exact Nat.lt_of_lt_of_le (by omega) room
  generalize { e with heap := { e.heap with used }, drift } = e at things inside control pc room
  obtain ⟨used, heap⟩ := things
  have notify : e.heap.cells[a.cells.getD 0 0]? = some (.closed (.builtin (.host .advance))) := by
    rw [heap, captured]
    exact h.notify
  have yield : e.heap.cells[a.cells.getD 1 0]? = some (.closed (.builtin .coYield)) := by
    rw [heap, captured]
    exact h.yield
  have code : suspenderCode[e.pc]? = some (.varargPrep 0) := by rw [pc]; rfl
  have started : e.step run v = (.next { e with pc := 1 }, v) := by
    rw [inside.step_eq run v control code, pc]
    rfl
  have next : InSuspender { e with pc := 1 } a s.frames := ⟨inside.frames, inside.body, inside.memory⟩
  have loaded := next.loads run v control rfl rfl notify
  have stillInside : InSuspender ({ e with pc := 2 }.setSlot a.base (.builtin (.host .advance))) a
    s.frames := ⟨inside.frames, inside.body, inside.memory⟩
  obtain ⟨y, spread, starved | ⟨asking, control, pc, callee, same⟩⟩ := stillInside.spreads run v control
    rfl (slot_setSlot { e with pc := 2 } room _) (by have behind := entered.behind; omega)
  · exact .after (.step started (.step loaded (.one spread))) (.starved starved)
  · refine .after (.step started (.step loaded (.one spread))) (.here ⟨rfl, ⟨used, same.trans heap⟩, a,
      ⟨asking, control, pc, callee, ?_⟩, delivers, deep⟩)
    rw [same]
    exact yield

/-! ## What follows -/

namespace Notifies

variable {a : Activation} {rest : List Frame} (h : m.Notifies a rest)
include h

/-- Where the host declines, the call ends without results. -/
theorem declined (run : Runner) {v : Conversation} (scope : m.scope? v = none) :
    ∃ (k : Nat) (x : Machine), Leads run k m v (x.leave a a.base 0) (v.tell (.line (.noContext .advance))) ∧
      x.Leaving a rest a.base #[] := by
  have there := h.base_lt
  let w := v.tell (.line (.noContext .advance))
  let asking : Machine := { m with
    pc := 4, top := a.base + 2
    control := .call (.builtin (.host .advance)) (m.valuesFrom (a.base + 1) (m.top - (a.base + 1)))
      a.base (.slots a.base (some 1)) false }
  let answering : Machine := { asking with control := .give #[.bool false] (.slots a.base (some 1)) }
  let answered : Machine := { asking with control := .run }.setSlot a.base (.bool false)
  let ending : Machine := { answered with pc := 9 }
  have asked : asking.step run v = (.next answering, w) := by
    have answer (args : Array Value) : asking.invoke .advance args v = (false, w) :=
      invoke_of_none scope .advance args
    rw [step_callback (m := asking) rfl (fun deep => by cases deep.1), answer]
  have given : answering.step run w = (.next answered, w) := by
    show (answering.give #[.bool false] (.slots a.base (some 1)), w) = _
    rw [give_one (m := answering) there]
  have still : answered.InSuspender a rest := ⟨h.frames, h.body, h.memory⟩
  have passed := still.passes run w rfl rfl (slot_setSlot { asking with control := .run } there _)
  have stillEnding : ending.InSuspender a rest := ⟨h.frames, h.body, h.memory⟩
  have code : suspenderCode[ending.pc]? = some (.return 0 (some 0) false) := rfl
  have returned : ending.step run w = (.next ({ answered with pc := 10 }.leave a a.base 0), w) :=
    stillEnding.step_eq run w rfl code
  have room : a.base ≤ answered.stack.size := by
    have there : a.base < answered.stack.size := by simpa [answered, setSlot] using there
    omega
  refine ⟨_, { answered with pc := 10 }, .step (h.asks run v) (.step asked (.step given
    (passed.trans (.one returned)))), h.frames, rfl, h.memory, room, fun i lt => ?_⟩
  exact absurd lt (Nat.not_lt_zero i)

end Notifies

/-- The machine calls what suspends a coroutine, as the last thing that is done in a call
from `s`.  Whatever it is given when it goes on is what that call results in. -/
structure YieldsAt (y : Machine) (s : Site) (slot : Nat) : Prop where
  control : y.control = .call (.builtin .coYield) #[] slot (.slots slot none) false
  /-- The coroutine is suspended, if no call keeps it. -/
  suspends : y.held = 0 → ∀ run v,
    y.step run v = (.stop (.suspended #[] (.slots slot none)) { y with control := .run }, v)
  /-- Otherwise the call fails. -/
  fails : y.held ≠ 0 → ∀ run v, y.step run v = (.next (y.raise (.located none y.heldText)), v)
  goesOn : ∀ run v z vs, y.Stays z → z.control = .give vs (.slots slot none) →
    Comes run z v fun x w => w = v ∧ x.EndedAt s vs

/-- Where the host accepts, the call ends with what it is given when it goes on. -/
theorem Notifies.accepted {a : Activation} {s : Site} (h : m.Notifies a s.frames)
    (deliver : a.deliver = s.deliver) (depth : a.depth = s.depth) :
    (m.yielding a).YieldsAt s a.base where
  control := rfl
  suspends free run v := step_yield run v rfl free
  fails kept run v := step_yield_kept run v rfl kept
  goesOn run v z vs stays control := by
    refine (comes_given control run v).bind ?_
    rintro x v ⟨rfl, given⟩
    have held : z.heldFrames = .lua { a with pc := 8 } :: s.frames := by
      rw [stays.frames, heldFrames, yielding, h.frames]
    obtain ⟨pc, frames⟩ := frames_of_held held
    have innermost : x.frames = .lua { a with pc } :: s.frames := given.frames.trans frames
    have code : suspenderCode[x.pc]? = some (.return 0 none false) := by
      rw [given.pc, stays.pc]
      rfl
    have inside : InSuspender x { a with pc } s.frames := ⟨innermost, h.body, given.memory⟩
    have count : x.top - a.base = vs.size := by
      rw [given.top]
      omega
    have returned : { x with pc := x.pc + 1 }.execute { a with pc } (.return 0 none false) =
        { x with pc := x.pc + 1 }.leave { a with pc } a.base vs.size := by
      simp only [execute, Bool.false_eq_true, if_false, Option.getD_none, Nat.add_zero, count]
    refine .step (inside.step_eq run v given.control code) (.here ⟨rfl, { x with pc := x.pc + 1 },
      { a with pc }, a.base, ?_, deliver, depth, returned⟩)
    exact ⟨innermost, given.control, given.memory, given.room, given.values⟩

end Lua.Machine

end NpcDialog
