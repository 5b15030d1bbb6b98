import NpcDialog.Proofs.Dialog.Reports
import NpcDialog.Proofs.Machine.LockstepRuns
import NpcDialog.Proofs.Machine.Parked
import NpcDialog.Proofs.Machine.Suspender

/-!
# Runs that nothing suspends

To say that a script does not notice that it is suspended, one has to say what it would do
if it were not: then what suspends the coroutine gives back at once, without results, as
it does when the coroutine is let go on.

* `Machine.runThrough` — a run that nothing suspends.
* `Machine.PlaysPlainly` — a run in which only plain calls of `next` let the player advance.
* `Machine.PlaysPlainly.runThrough_eq` — what such a run comes to.
* `Conversation.Continues` — a conversation in which more was told before.
* `Veil.Lockstep.continues` — machines that differ only in the record of turns do the same
  in such a conversation.
-/

namespace NpcDialog

open Lua

/-! ## Runs -/

namespace Lua.Machine

/-- A step, with what suspends the coroutine giving back at once. -/
def stepThrough (run : Runner) (m : Machine) : Conversing Step := do
  match ← m.step run with
  | .stop (.suspended _ deliver) m => return .next (m.goingOn deliver)
  | s => return s

/-- Such steps until the machine stops, `n` of them at most. -/
def loopThrough (run : Runner) : Nat → Machine → Conversing (Stop × Machine)
  | 0, m => return (.failed .exhausted, m)
  | n + 1, m => do
    match ← m.stepThrough run with
    | .next m => loopThrough run n m
    | .stop s m => return (s, m)

/-- A run that nothing suspends.  Nested runs are as always: no library function that waits
for one lets the coroutine be suspended. -/
def runThrough : Runner := loopThrough (runWithin (levels - 1)) stepBudget

theorem runWithin_eq {n : Nat} (some_ : n ≠ 0) :
    runWithin n = loop (runWithin (n - 1)) stepBudget := by
  cases n with
  | zero => exact absurd rfl some_
  | succ n =>
    funext m
    rw [runWithin, Nat.add_sub_cancel]

/-- A run that can be suspended. -/
theorem run_eq : run = loop (runWithin (levels - 1)) stepBudget := runWithin_eq (by decide)

section Steps

variable {run : Runner} {m m' : Machine} {v v' : Conversation}

theorem stepThrough_of_next (h : m.step run v = (.next m', v')) :
    m.stepThrough run v = (.next m', v') := by
  rw [stepThrough, Conversing.bind_apply, h]
  rfl

theorem stepThrough_of_suspended {vs : Array Value} {deliver : Deliver}
    (h : m.step run v = (.stop (.suspended vs deliver) m', v')) :
    m.stepThrough run v = (.next (m'.goingOn deliver), v') := by
  rw [stepThrough, Conversing.bind_apply, h]
  rfl

theorem stepThrough_of_stop {s : Stop} (h : m.step run v = (.stop s m', v'))
    (ends : ∀ vs deliver, s ≠ .suspended vs deliver) : m.stepThrough run v = (.stop s m', v') := by
  rw [stepThrough, Conversing.bind_apply, h]
  cases s with
  | suspended vs deliver => exact absurd rfl (ends vs deliver)
  | _ => rfl

theorem loopThrough_of_next (h : m.stepThrough run v = (.next m', v')) (n : Nat) :
    loopThrough run (n + 1) m v = loopThrough run n m' v' := by
  rw [loopThrough, Conversing.bind_apply, h]

theorem loopThrough_of_stop {s : Stop} (h : m.stepThrough run v = (.stop s m', v')) (n : Nat) :
    loopThrough run (n + 1) m v = ((s, m'), v') := by
  rw [loopThrough, Conversing.bind_apply, h]
  rfl

/-- The induction is on the steps. -/
theorem loopThrough_of_leads {k : Nat} (h : Leads run k m v m' v') (n : Nat) :
    loopThrough run (k + n) m v = loopThrough run n m' v' := by
  induction h with
  | none m v => rw [Nat.zero_add]
  | step first rest ih =>
    rw [Nat.add_right_comm, loopThrough_of_next (stepThrough_of_next first), ih]

end Steps

end Lua.Machine

/-! ## Plain runs -/

/-- How often the player was let advance. -/
def Conversation.advances (v : Conversation) : Nat := (Report.kinds v.reports.toList).count .advance

theorem Conversation.advances_notified (v : Conversation) (s : InteractionScope) :
    (v.notified s).advances = v.advances + 1 := by
  simp [advances, notified, tell]

namespace Lua.Machine

/-- The call `a` of `next` is about to let the player advance, with the handles in place.
Only calls of the program's own lead to it from where the run began with `m₀`, none that a
library function or an operator makes; and no coroutine was made, resumed or closed since
then. -/
structure CallsNext (m₀ m : Machine) (v : Conversation) (a : Activation) (rest : List Frame)
    (s : InteractionScope) : Prop extends m.Notifies a rest where
  scope : m.scope? v = some s
  plain : m.depth = m₀.depth
  alone : m.statuses = m₀.statuses

/-- A run that nothing suspends comes to an end after so many steps, and only such calls of
`next` let the player advance in it or would suspend it. -/
inductive PlaysPlainly (n : Nat) (m₀ : Machine) :
    Nat → Machine → Conversation → (Stop × Machine) × Conversation → Prop
  /-- It ends with the next step. -/
  | ends {m m' : Machine} {v v' : Conversation} {s : Stop}
      (last : m.step (runWithin n) v = (.stop s m', v'))
      (ends : ∀ vs deliver, s ≠ .suspended vs deliver) (silent : v'.advances = v.advances) :
      PlaysPlainly n m₀ 1 m v ((s, m'), v')
  /-- It makes another step. -/
  | step {m m' : Machine} {v v' : Conversation} {k : Nat} {x : (Stop × Machine) × Conversation}
      (first : m.step (runWithin n) v = (.next m', v')) (silent : v'.advances = v.advances)
      (later : PlaysPlainly n m₀ k m' v' x) : PlaysPlainly n m₀ (k + 1) m v x
  /-- It calls `next`. -/
  | next {m : Machine} {v : Conversation} {a : Activation} {rest : List Frame}
      {s : InteractionScope} {k : Nat} {x : (Stop × Machine) × Conversation}
      (calls : CallsNext m₀ m v a rest s)
      (later : PlaysPlainly n m₀ k ((m.waiting a).goingOn (.slots a.base none)) (v.notified s) x) :
      PlaysPlainly n m₀ (k + 7) m v x

theorem PlaysPlainly.advances_le {n k : Nat} {m₀ m : Machine} {v : Conversation}
    {x : (Stop × Machine) × Conversation} (h : PlaysPlainly n m₀ k m v x) : v.advances ≤ x.2.advances := by
  induction h with
  | ends last ends silent => exact Nat.le_of_eq silent.symm
  | step first silent later ih => exact silent ▸ ih
  | next calls later ih =>
    rw [Conversation.advances_notified] at ih
    exact Nat.le_of_succ_le ih

/-- The run comes to this end.  The induction is on the run. -/
theorem PlaysPlainly.loopThrough_eq {n k : Nat} {m₀ m : Machine} {v : Conversation}
    {x : (Stop × Machine) × Conversation} (h : PlaysPlainly n m₀ k m v x) (free : m.held = 0)
    (more : Nat) : loopThrough (runWithin n) (k + more) m v = x := by
  induction h with
  | ends last ends silent =>
    rw [Nat.add_comm, loopThrough_of_stop (stepThrough_of_stop last ends)]
  | @step m m' v v' k x first silent later ih =>
    have seated := bracketed_keeps.step (keeps_runWithin n) m v
    rw [first] at seated
    rw [Nat.add_right_comm, loopThrough_of_next (stepThrough_of_next first)]
    exact ih (seated.keeps.held.trans free)
  | @next m v a rest s k x calls later ih =>
    have held : (m.yielding a).held = 0 := free
    have asks := calls.leads (runWithin n) calls.scope
    have yields := step_yield (runWithin n) (v.notified s) rfl held
    have budget : k + 7 + more = 6 + (k + more + 1) := by omega
    rw [budget, loopThrough_of_leads asks, loopThrough_of_next (stepThrough_of_suspended yields)]
    exact ih free

end Lua.Machine

/-! ## Conversations in which more was told -/

/-- The same conversation, in which more was told before. -/
structure Conversation.Continues (before : List Report) (v w : Conversation) : Prop where
  identities : w.identities = v.identities
  reports : w.reports.toList = before ++ v.reports.toList

theorem Conversation.Continues.tell {before : List Report} {v w : Conversation}
    (h : Continues before v w) (r : Report) : Continues before (v.tell r) (w.tell r) where
  identities := h.identities
  reports := by simp [Conversation.tell, h.reports]

theorem Conversation.Continues.scope_eq {before : List Report} {v w : Conversation}
    (h : Continues before v w) (m : Machine) : m.scope? w = m.scope? v := by
  unfold Machine.scope? Machine.ambient? Conversation.identity?
  rw [h.identities]

theorem respected_continues (before : List Report) : Respected (Conversation.Continues before) := by
  refine ⟨?_, fun u v w h => ⟨rfl, h.tell _⟩⟩
  intro m c args v w h
  have scope := h.scope_eq m
  cases found : m.scope? v with
  | none =>
    rw [Machine.invoke_of_none found, Machine.invoke_of_none (scope.trans found)]
    exact ⟨rfl, h.tell _⟩
  | some s =>
    rw [Machine.invoke_of_some found, Machine.invoke_of_some (scope.trans found)]
    exact ⟨rfl, (h.tell _).tell _⟩

namespace Lua.Veil

/-- Two machines that differ only in the record of turns do the same, also if more was told
before in the conversation of the second one. -/
theorem Lockstep.continues {α : Type} {machine : α → Machine} {R : α → α → Prop} {m : Machine}
    {x y : Conversing α} (h : Veil.turns.Lockstep machine R m x y) {before : List Report}
    (respects : Conversing.Respects (Conversation.Continues before) y) {v w : Conversation}
    (continues : v.Continues before w) : R (x v).1 (y w).1 ∧ (x v).2.Continues before (y w).2 := by
  obtain ⟨same, related⟩ := (h v).2.2 (.inl rfl)
  obtain ⟨answer, after⟩ := respects v w continues
  rw [← answer, same]
  exact ⟨related, after⟩

/-- So it is for a step. -/
theorem Same.step_continues {m n : Machine} (same : Veil.turns.Same m n) (k : Nat)
    {before : List Report} {v w w' : Conversation} (continues : v.Continues before w) {s : Step}
    (stepped : n.step (Machine.runWithin k) w = (s, w')) :
    ∃ s' v', m.step (Machine.runWithin k) v = (s', v') ∧ Veil.turns.Steps s' s ∧
      v'.Continues before w' := by
  have respected := respected_continues before
  have locked := (Veil.turns.locked_runWithin k).step same
  have both := locked.continues (respects_step respected (respected.runWithin k) n) continues
  rw [stepped] at both
  exact ⟨_, _, rfl, both⟩

/-- Only the record of turns is behind the veil. -/
theorem machine_turns (m : Machine) : Veil.turns.machine m = { m with turns := [] } := by
  have code : Veil.turns.code = id := by
    funext f
    simp [Veil.code, bare]
  have fault : Veil.turns.fault = id := funext (fault_of_noted _ rfl)
  have frame : Veil.turns.frame = id := by
    funext f
    cases f <;> simp [Veil.frame, activation, code]
  have thread : Veil.turns.thread = id := by
    funext t
    obtain ⟨status, _⟩ := t
    cases status <;> simp [Veil.thread, Veil.status, frame, fault]
  have closure : Veil.turns.closure = id := by
    funext c
    simp [Veil.closure, code]
  have control (c : Control) : Veil.turns.control c = c := by
    cases c <;> simp [Veil.control, fault]
  simp [machine, light, store, control, thread, frame, closure]

theorem stop_turns (s : Stop) : Veil.turns.stop s = s := by
  cases s <;> simp [stop, fault_of_noted Veil.turns rfl]

theorem same_turns_iff {m n : Machine} : Veil.turns.Same m n ↔ m = { n with turns := m.turns } := by
  rw [Same, machine_turns, machine_turns]
  constructor
  · intro same
    exact congrArg (fun k : Machine => { k with turns := m.turns }) same
  · intro same
    rw [same]

end Lua.Veil

end NpcDialog
