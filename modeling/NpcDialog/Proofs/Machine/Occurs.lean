import NpcDialog.Proofs.Machine.Sealed

/-!
# What occurs in a run

A run makes one step after the other, and in the middle of a step there are other
runs, one level down: calls whose results a built-in function needs, and turns of
other coroutines.  What holds of all machines that occur in any of them holds at all
times, whatever the program does.

A step knows of the runs in its middle only what comes of them.  So a run of some
machine is in the middle of a step just if what comes of the step depends on it.

* `Consults` — what comes of something depends on a run.
* `Machine.Occurs` — a machine occurs in a run.
* `Machine.Occurs.inherits` — the functions and the sealed variables are those from
  before the run.
-/

namespace NpcDialog

open Lua

open Conversing (Ensures)

/-- What comes of something that is done with runs depends on the run of a machine `m`
in a conversation `w`: it is another thing if this run has some other outcome. -/
def Consults {α : Type} (x : Runner → Conversing α) (run : Runner) (v : Conversation) (m : Machine)
    (w : Conversation) : Prop :=
  ∃ run' : Runner, (∀ m' w', (m', w') ≠ (m, w) → run' m' w' = run m' w') ∧ x run' v ≠ x run v

/-- A machine occurs in a run with so many levels, or in one in the middle of it. -/
inductive Lua.Machine.Occurs : Nat → Machine → Conversation → Machine → Conversation → Prop
  /-- The run begins with it. -/
  | here (n : Nat) (m : Machine) (v : Conversation) : Occurs n m v m v
  /-- It occurs later. -/
  | next {n : Nat} {m m' m'' : Machine} {v v' v'' : Conversation}
      (first : m.step (Machine.runWithin n) v = (.next m', v'))
      (later : Occurs (n + 1) m' v' m'' v'') : Occurs (n + 1) m v m'' v''
  /-- It occurs in the middle of the first step. -/
  | inside {n : Nat} {m m' m'' : Machine} {v v' v'' : Conversation}
      (begun : Consults (fun run => m.step run) (Machine.runWithin n) v m' v')
      (later : Occurs n m' v' m'' v'') : Occurs (n + 1) m v m'' v''

/-- Something goes on in the same way if it does for each answer that there can be. -/
theorem Conversing.Ensures.bind_congr {α β : Type} {P : α → Prop} {x : Conversing α}
    {f g : α → Conversing β} (hx : Ensures P x) (same : ∀ a, P a → f a = g a) :
    x >>= f = x >>= g := by
  funext v
  show f _ _ = g _ _
  rw [same _ (hx v)]

/-! ## Runs that agree -/

/-- Two ways of running machines agree on all that inherit from one. -/
def Runner.Agree (m₀ : Machine) (run run' : Runner) : Prop := ∀ m, m₀.Inherits m → run m = run' m

namespace Runner.Agree

variable {m₀ m : Machine} {run run' : Runner} (agree : Agree m₀ run run')
  (hrun : Runner.Keeps Machine.Preserves run) (h : m₀.Inherits m)
include agree hrun h

omit hrun in
theorem nestedCall (start : Nat) (f : Value) (args : Array Value) :
    Machine.nestedCall run start f args m = Machine.nestedCall run' start f args m := by
  have begun : m₀.Inherits { m with
      frames := .boundary :: m.heldFrames, held := m.held + 1
      control := .call f args start .onward true } :=
    (h.trans (.nested m (m.held + 1))).trans (.of_core rfl)
  simp only [Machine.nestedCall, agree _ begun]

/-- The induction is on the bound for the variables. -/
theorem closeAll (floor n : Nat) (fault : Option Value) :
    Machine.closeAll run floor n fault m = Machine.closeAll run' floor n fault m := by
  induction n generalizing fault m with
  | zero => rfl
  | succ n ih =>
    simp only [Machine.closeAll]
    split
    · next s rest _ =>
      have popped : m₀.Inherits { m with closers := rest } := h.trans (.of_core rfl)
      split
      · rw [← agree.nestedCall popped]
        refine (Machine.bracketed_preserves.nestedCall hrun _ _ _ _).bind_congr fun answer kept => ?_
        obtain ⟨result, m'⟩ := answer
        have called := popped.trans kept.toInherits
        cases result with
        | ok vs => exact ih called _
        | error e => exact ih (called.trans (.showing m' _)) _
      · rfl
    · rfl

theorem attemptCall (start : Nat) (f : Value) (args : Array Value) :
    Machine.attemptCall run start f args m = Machine.attemptCall run' start f args m := by
  unfold Machine.attemptCall
  rw [← agree.nestedCall h]
  refine (Machine.bracketed_preserves.nestedCall hrun _ _ _ _).bind_congr fun answer kept => ?_
  obtain ⟨result, m'⟩ := answer
  cases result with
  | ok vs => rfl
  | error e =>
    have shown := (h.trans kept.toInherits).trans (.showing m' e.isPlaced)
    have closed := shown.trans (.of_change (.closeCells start))
    simp only [agree.closeAll hrun closed]

theorem finalize (start id : Nat) :
    Machine.finalize run start id m = Machine.finalize run' start id m := by
  have begun : m₀.Inherits { m with handler := none } := h.trans (.of_core rfl)
  simp only [Machine.finalize, agree.attemptCall hrun begun]

/-- The induction is on the tables. -/
theorem finalizeAll (start : Nat) (ids : List Nat) :
    Machine.finalizeAll run start ids m = Machine.finalizeAll run' start ids m := by
  induction ids generalizing m with
  | nil => rfl
  | cons id ids ih =>
    rw [Machine.finalizeAll, Machine.finalizeAll, ← agree.finalize hrun h]
    exact (Machine.bracketed_preserves.finalize hrun _ _ _).bind_congr fun _ kept =>
      ih (h.trans kept.toInherits)

theorem collect (slots : Nat) : Machine.collect run slots m = Machine.collect run' slots m := by
  have begun : m₀.Inherits (m.withHeap { (m.swept slots).2 with finalizing := true }) :=
    h.trans (.of_core rfl)
  simp only [Machine.collect, agree.finalizeAll hrun begun]

omit hrun in
theorem resume (id : Nat) (args : Array Value) :
    Machine.resume run id args m = Machine.resume run' id args m := by
  unfold Machine.resume
  cases begun : m.entered id args with
  | error f => rfl
  | ok inner => simp only [agree inner (h.trans (.entered begun))]

theorem closeThread (id : Nat) : Machine.closeThread run id m = Machine.closeThread run' id m := by
  simp only [Machine.closeThread]
  split
  · next status _ =>
    have shown := h.trans (.showing m (status.fault?.any Fault.isPlaced))
    generalize m.showing (status.fault?.any Fault.isPlaced) = m at shown ⊢
    have emptied : Machine.Changes { (m.park .active).unpark id with held := 1 }
        { (m.park .active).unpark id with
          frames := [], depth := m.depth + 1, held := 1, handler := none } :=
      Machine.changes_calls (List.nil_subset _) rfl
    have begun := Machine.bracketed_preserves.of_changes (emptied.tail (.closeCells 0))
    have inner := (shown.trans (.switched m .active id 1)).trans begun.toInherits
    rw [agree.closeAll hrun inner]
  · rfl

/-- The induction is on the routine: each step is performed on a machine that inherits
from the first one. -/
theorem perform (callee : Value) (start : Nat) (r : Routine) :
    Lua.perform run callee start r m = Lua.perform run' callee start r m := by
  induction r generalizing m with
  | done e => rfl
  | fail f => rfl
  | heap f k ih => exact ih _ (h.trans (.of_core rfl))
  | call f args k ih =>
    rw [Lua.perform, Lua.perform, ← agree.nestedCall h]
    refine (Machine.bracketed_preserves.nestedCall hrun _ _ _ _).bind_congr fun answer kept => ?_
    obtain ⟨result, m'⟩ := answer
    cases result with
    | ok vs => exact ih _ (h.trans kept.toInherits)
    | error e => rfl
  | attempt f args k ih =>
    rw [Lua.perform, Lua.perform, ← agree.attemptCall hrun h]
    exact (Machine.bracketed_preserves.attemptCall hrun _ _ _ _).bind_congr fun _ kept =>
      ih _ (h.trans kept.toInherits)
  | host c args k ih =>
    have asked : Ensures (fun _ => True) (m.invoke c args) := fun _ => trivial
    exact asked.bind_congr fun _ _ => ih _ h
  | process u k ih =>
    have told : Ensures (fun _ => True) (Conversing.tell (.process u)) := fun _ => trivial
    exact told.bind_congr fun _ _ => ih (h.trans (.of_core rfl))
  | room k ih => exact ih _ h
  | install c env k ih => exact ih _ (h.trans (.of_change (.install c _)))
  | code f strip k ih => exact ih _ (h.trans (.showing m _))
  | place level k ih => exact ih _ (h.trans (.showing m _))
  | create f k ih => exact ih _ (h.trans (Machine.bracketed_preserves.newThread m f).toInherits)
  | resume id args k ih =>
    rw [Lua.perform, Lua.perform, ← agree.resume h]
    refine (Machine.bracketed_preserves.resume hrun _ _ _).bind_congr fun answer kept => ?_
    obtain ⟨result, m'⟩ := answer
    have called := h.trans kept.toInherits
    cases result with
    | ok vs => exact ih _ called
    | error f => exact ih _ (called.trans (.showing m' _))
  | liveness id k ih => exact ih _ h
  | broken id k ih => exact ih _ h
  | close id k ih =>
    rw [Lua.perform, Lua.perform, ← agree.closeThread hrun h]
    exact (Machine.bracketed_preserves.closeThread hrun _ _).bind_congr fun _ kept =>
      ih _ (h.trans kept.toInherits)
  | running k ih => exact ih _ h
  | canSuspend id k ih => exact ih _ h
  | memory k ih => exact ih _ (h.trans (.disclosing m _))
  | collect k ih =>
    rw [Lua.perform, Lua.perform, ← agree.collect hrun h]
    exact (Machine.bracketed_preserves.collect hrun _ _).bind_congr fun _ kept =>
      ih (h.trans kept.toInherits)

theorem begin (f : Value) (args : Array Value) (start : Nat) (deliver : Deliver) (nested : Bool) :
    Machine.begin run m f args start deliver nested =
      Machine.begin run' m f args start deliver nested := by
  have same (depth : Nat) (callee : Value) (r : Routine) :
      Lua.perform run callee start r { m with depth, control := .run } =
        Lua.perform run' callee start r { m with depth, control := .run } := by
    have called : m₀.Inherits { m with depth, control := .run } := h.trans (.of_core rfl)
    exact agree.perform hrun called callee start r
  simp only [Machine.begin, same]

omit hrun in
theorem handle (f : Fault) : Machine.handle run m f = Machine.handle run' m f := by
  unfold Machine.handle
  split
  case h_5 => rw [agree.nestedCall (h.trans (.showing m _))]
  all_goals rfl

theorem step : m.step run = m.step run' := by
  have stilled : m₀.Inherits { m with control := .run } := h.trans (.of_core rfl)
  unfold Machine.step
  split
  · rfl
  · exact agree.begin hrun stilled _ _ _ _ _
  · rfl
  · exact agree.handle stilled _
  · rfl

end Runner.Agree

/-! ## What occurs -/

namespace Lua.Machine

variable {m m' m₁ : Machine} {v v' w : Conversation}

/-- If something comes to the same with all ways of running the machines that inherit
from one, then only such machines are run: runs of others can have any outcome. -/
theorem inherits_of_consults {α : Type} {x : Runner → Conversing α} {run : Runner}
    (same : ∀ run', Runner.Agree m run run' → x run = x run') (begun : Consults x run v m₁ w) :
    m.Inherits m₁ := by
  obtain ⟨run', elsewhere, differs⟩ := begun
  refine Classical.byContradiction fun other => differs ?_
  have agree : Runner.Agree m run run' := fun m' h => by
    funext w'
    refine (elsewhere m' w' fun same => other ?_).symm
    rwa [← (Prod.mk.inj same).1]
  exact congrFun (same run' agree).symm v

/-- Whatever occurs in a run inherits from the machine with which it began.  The
induction is on how it occurs. -/
theorem Occurs.inherits {n : Nat} (h : Occurs n m v m' v') : m.Inherits m' := by
  induction h with
  | here n m v => exact .refl m
  | @next n m _ _ v _ _ first later ih =>
    have stepped := (Machine.bracketed_preserves.step (Machine.bracketed_preserves.runWithin n) m v).keeps
    rw [first] at stepped
    exact stepped.toInherits.trans ih
  | @inside n _ _ _ _ _ _ begun later ih =>
    have runs := Machine.bracketed_preserves.runWithin n
    exact (inherits_of_consults (fun _ agree => agree.step runs (.refl _)) begun).trans ih

end Lua.Machine

end NpcDialog
