import NpcDialog.Proofs.Dialog.Contexts
import NpcDialog.Proofs.Machine.Coroutines

/-!
# Where letting the player advance suspends the script

The host is told that the player may advance before the script is suspended, and
the one does not always go with the other.  A script is suspended if it calls
`next` on its own coroutine and no library function waits for the results of the
call.  A coroutine that the script has made is suspended in its place, and the
script goes on; and where a library function waits, nothing is suspended, and a
fault goes on from the call.

* `Context.Runs` — the run of a script's own coroutine.
* `Context.Advances` — what a step is that lets the player advance.
* `Context.advances_iff` — a call in such a run.
* `next_suspends_own_coroutine` — a call in any run.
-/

namespace NpcDialog

open Lua Lua.Machine

namespace Context

/-- The machine in which a coroutine of a context is given a turn. -/
def ready (c : Context) (h : Host) : Machine :=
  { (withFiles c.machine h.files).rested with depth := 0 }

/-- The run, with so many levels below it, is the one in which the script's own
coroutine has its turn in a step. -/
structure Runs (c : Context) (t : Task) (h : Host) (n : Nat) (m₀ : Machine) (v₀ : Conversation) :
    Prop where
  levels : n + 1 = levels
  entered : (c.ready h).entered t.thread #[] = .ok m₀
  quiet : v₀ = c.conversation.quiet

/-- The next turn of a script begins with the end of the call `a`. -/
def GoesOnAfter (c : Context) (thread : Nat) (a : Activation) (rest : List Frame) : Prop :=
  ∀ (h : Host) (run : Runner) (v : Conversation), ∃ m₀ m', (c.ready h).entered thread #[] = .ok m₀ ∧
    Leads run 2 m₀ v m' v ∧ m'.BackFrom a rest

theorem goesOnAfter_of_waits {c : Context} {thread : Nat} {a : Activation} {rest : List Frame}
    (waits : c.machine.Waits thread a rest) : c.GoesOnAfter thread a rest := by
  intro h run v
  have ready : (c.ready h).Waits thread a rest :=
    ⟨waits.other, waits.thread, waits.body, waits.memory⟩
  have shallow : 0 < depthBound := by decide
  exact ready.goesOn shallow run v

/-- A step in which the player is let advance by the call `a`, and only by it: this
is the last event of the step, and the script waits inside that call. -/
structure Advances (c : Context) (t : Task) (h : Host) (a : Activation) (rest : List Frame)
    (s : InteractionScope) : Prop where
  last : ∃ before, .advance ∉ before.map Event.kind ∧
    Report.events (c.step t h).reports = before ++ [⟨s.session, s.entity, .advance⟩]
  task : (c.step t h).value.task = some ⟨t.thread, .suspended, t.suspensions + 1⟩
  goesOn : (c.step t h).value.GoesOnAfter t.thread a rest

section Own

variable {c : Context} {t : Task} {h : Host} {n : Nat} {m₀ m : Machine} {v₀ v : Conversation}
variable {a : Activation} {rest : List Frame} {s : InteractionScope}
variable (runs : c.Runs t h n m₀ v₀) (asks : Asks n m₀ v₀ m v a rest s)
include runs asks

/-- The turn ends inside the call. -/
theorem turn_asks : ∃ m₂, turn t.thread (withFiles c.machine h.files) c.conversation.quiet =
    ((.suspended, none, m₂), v.notified s) ∧ m₂.Waits t.thread a rest := by
  obtain ⟨m₂, resumed, waits, _, _⟩ := asks.handsBack runs.entered
  refine ⟨m₂, ?_, waits⟩
  have ends : (withFiles c.machine h.files).resumeThread t.thread #[] c.conversation.quiet =
      ((.ok #[], m₂), v.notified s) := by
    rw [← runs.quiet, ← resumed, runs.levels]
    rfl
  rw [turn, Conversing.bind_apply, ends]
  show ((if m₂.liveness t.thread == .suspended then TaskState.suspended else .completed, none, m₂),
    _) = _
  rw [waits.liveness_eq]
  rfl

/-- The step ends with the call. -/
theorem step_asks :
    Report.events (c.step t h).reports =
        Report.events v.reports.toList ++ [⟨s.session, s.entity, .advance⟩] ∧
      (c.step t h).value.task = some ⟨t.thread, .suspended, t.suspensions + 1⟩ ∧
      (c.step t h).value.GoesOnAfter t.thread a rest := by
  obtain ⟨m₂, turned, waits⟩ := turn_asks runs asks
  rw [step, Action.bind_apply, Action.files_apply]
  dsimp only
  rw [turned]
  refine ⟨?_, rfl, goesOnAfter_of_waits waits⟩
  simp [Conversation.notified, Conversation.tell]

/-- The call lets the player advance as it is to just if it is the first of the
step. -/
theorem advances_iff :
    c.Advances t h a rest s ↔ .advance ∉ Report.kinds v.reports.toList := by
  obtain ⟨events, task, goesOn⟩ := step_asks runs asks
  constructor
  · rintro ⟨⟨before, silent, last⟩, -, -⟩
    obtain ⟨same, -⟩ := List.append_inj' (events.symm.trans last) rfl
    rw [Report.kinds, same]
    exact silent
  · intro first
    exact ⟨⟨_, first, events⟩, task, goesOn⟩

end Own

end Context

/-! ## All runs -/

section

variable {n : Nat} {m₀ m : Machine} {v₀ v : Conversation} {a : Activation} {rest : List Frame}
variable {s : InteractionScope} (asks : Machine.Asks n m₀ v₀ m v a rest s)
include asks

/-- A coroutine that a script has made and that asks the host is suspended in the
script's place: the function that resumed it goes on. -/
theorem perform_resume {id : Nat} {args : Array Value} {m₁ : Machine}
    (entered : m₁.entered id args = .ok m₀) (callee : Value) (start : Nat)
    (k : Except Value (Array Value) → Routine) :
    ∃ m₂, perform (runWithin (n + 1)) callee start (.resume id args k) m₁ v₀ =
        perform (runWithin (n + 1)) callee start (k (.ok #[])) m₂ (v.notified s) ∧
      m₁.Keeps m₂ ∧ m₂.control = .run := by
  obtain ⟨m₂, resumed, _, kept, control⟩ := asks.handsBack entered
  refine ⟨m₂, ?_, kept, control⟩
  rw [perform, Conversing.bind_apply, resumed]

/-- A run ends inside the call just if no other call keeps the coroutine. -/
theorem stops_iff :
    runWithin (n + 1) m₀ v₀ = ((.suspended #[] (.slots a.base none), m.waiting a), v.notified s) ↔
      m₀.held = 0 := by
  refine ⟨fun ends => ?_, asks.stops⟩
  by_cases free : m₀.held = 0
  · exact free
  · exact absurd (congrArg (·.1.1) ends) (runWithin_not_suspended (n + 1) free v₀ _ _)

/-- A call of `next` that tells the host that the player may advance suspends the
script just where it can.

The run in which the call is made ends inside the call just if no library function
waits for the results; otherwise the run never ends suspended, and a fault goes on
from the call after the notification.  If it is the run of the script's own
coroutine, the call lets the player advance as it is to just if it is the first of
the step.  If it is the turn of a coroutine that the script has made, the
notification is out as well, but the function that resumed the coroutine goes on. -/
theorem next_suspends_own_coroutine :
    (runWithin (n + 1) m₀ v₀ = ((.suspended #[] (.slots a.base none), m.waiting a), v.notified s) ↔
      m₀.held = 0) ∧
    (m₀.held ≠ 0 → (∀ vs deliver, (runWithin (n + 1) m₀ v₀).1.1 ≠ .suspended vs deliver) ∧
      ∃ k, Leads (runWithin n) k m₀ v₀ ((m.yielding a).raise (.located none m.heldText))
        (v.notified s)) ∧
    (∀ (c : Context) (t : Task) (h : Host), c.Runs t h n m₀ v₀ →
      (c.Advances t h a rest s ↔ .advance ∉ Report.kinds v.reports.toList)) ∧
    (∀ (m₁ : Machine) (id : Nat) (args : Array Value) (callee : Value) (start : Nat)
        (k : Except Value (Array Value) → Routine), m₁.entered id args = .ok m₀ →
      ∃ m₂, perform (runWithin (n + 1)) callee start (.resume id args k) m₁ v₀ =
          perform (runWithin (n + 1)) callee start (k (.ok #[])) m₂ (v.notified s) ∧
        m₁.Keeps m₂ ∧ m₂.control = .run) := by
  refine ⟨stops_iff asks, fun kept => ⟨?_, asks.fails kept⟩, ?_, ?_⟩
  · exact runWithin_not_suspended (n + 1) kept v₀
  · intro c t h runs
    exact Context.advances_iff runs asks
  · intro m₁ id args callee start k entered
    exact perform_resume asks entered callee start k

end

/-! ## Such calls -/

namespace AtNext

/-- A call of `next` that is about to ask the host. -/
def call : Activation where
  body := ⟨0, true, 2, suspenderCode, #[], #[⟨false, 0⟩, ⟨false, 1⟩], ⟨none, 0, #[], #[], #[]⟩, []⟩
  cells := #[0, 1]
  base := 0
  start := 0
  extra := 0
  pc := 3
  deliver := .discard
  depth := 1

/-- A context whose machine has the handles in place and a coroutine in such a
call. -/
def context : Context where
  id := ⟨1⟩
  session := ⟨1⟩
  entity := ⟨2⟩
  task := none
  machine :=
    let m := (Machine.idle ((Lua.Heap.empty .empty).newTable (Table.withRoom 0 3)).2).bindHandles
    let cells := #[.closed (.builtin (.host .advance)), .closed (.builtin .coYield)]
    { m with
      heap := { m.heap with cells }
      threads := #[.empty .active,
        ⟨.suspended .discard, #[.builtin (.host .advance), .nil], 1, [.lua call], [], [], none⟩] }
  conversation := .between ⟨1⟩ ⟨1⟩ ⟨2⟩

/-- Its conversation before a step. -/
def quiet : Conversation := context.conversation.quiet

/-- The scope of its callbacks. -/
def scope : InteractionScope := ⟨some ⟨1⟩, ⟨1⟩, ⟨2⟩⟩

/-- Where its machine begins a step. -/
def before : Machine := context.ready (.start .empty)

/-- The machine in the coroutine's turn, kept by so many calls. -/
def turned (held : Nat) (control : Control) : Machine :=
  { (before.park .active).unpark 1 with turns := [1], depth := 1, held, control }

theorem entered : before.entered 1 #[] = .ok (turned 0 (.give #[] .discard)) := rfl

theorem notifies (held : Nat) : (turned held .run).Notifies call [] where
  frames := rfl
  body := ⟨rfl, rfl⟩
  memory := .inl (show before.heap.limit = 0 by decide +kernel)
  control := rfl
  pc := rfl
  notify := rfl
  yield := rfl

theorem scope_eq (held : Nat) (control : Control) :
    (turned held control).scope? quiet = some scope := by
  have same : (turned held control).heap = before.heap := heap_unpark (before.park .active) 1
  have found : before.scope? quiet = some scope := by decide +kernel
  unfold Machine.scope? Machine.ambient? at found ⊢
  rw [same]
  exact found

theorem asks_own (n : Nat) :
    Machine.Asks n (turned 0 (.give #[] .discard)) quiet (turned 0 .run) quiet call [] scope where
  leads := ⟨1, by decide, .one rfl⟩
  notifies := notifies 0
  scope := scope_eq _ _

theorem asks_kept (n : Nat) :
    Machine.Asks n (turned 1 .run) quiet (turned 1 .run) quiet call [] scope where
  leads := ⟨0, by decide, .none _ _⟩
  notifies := notifies 1
  scope := scope_eq _ _

end AtNext

open AtNext in
/-- All of it comes about. -/
theorem next_suspends_own_coroutine_atNext :
    (Machine.Asks 0 (turned 1 .run) quiet (turned 1 .run) quiet call [] scope ∧
      (turned 1 .run).held ≠ 0 ∧
      ∀ vs deliver, (runWithin (0 + 1) (turned 1 .run) quiet).1.1 ≠ .suspended vs deliver) ∧
    (context.Runs ⟨1, .created, 0⟩ (.start .empty) (levels - 1) (turned 0 (.give #[] .discard)) quiet ∧
      .advance ∉ Report.kinds quiet.reports.toList ∧
      context.Advances ⟨1, .created, 0⟩ (.start .empty) call [] scope) ∧
    (before.entered 1 #[] = .ok (turned 0 (.give #[] .discard)) ∧
      ∃ m₂, perform (runWithin 1) .nil 0 (.resume 1 #[] fun _ => .done (.results #[])) before quiet =
          perform (runWithin 1) .nil 0 (.done (.results #[])) m₂ (quiet.notified scope) ∧
        before.Keeps m₂ ∧ m₂.control = .run) := by
  have kept : (turned 1 .run).held ≠ 0 := by decide
  have runs : context.Runs ⟨1, .created, 0⟩ (.start .empty) (levels - 1)
      (turned 0 (.give #[] .discard)) quiet := ⟨rfl, entered, rfl⟩
  have silent : .advance ∉ Report.kinds quiet.reports.toList := by decide
  obtain ⟨-, inCallback, -, -⟩ := next_suspends_own_coroutine (asks_kept 0)
  obtain ⟨-, -, own, -⟩ := next_suspends_own_coroutine (asks_own (levels - 1))
  obtain ⟨-, -, -, other⟩ := next_suspends_own_coroutine (asks_own 0)
  refine ⟨⟨asks_kept 0, kept, ?_⟩, ⟨runs, silent, ?_⟩, entered, ?_⟩
  · exact (inCallback kept).1
  · exact (own _ _ _ runs).2 silent
  · exact other before 1 #[] .nil 0 (fun _ => .done (.results #[])) entered

end NpcDialog
