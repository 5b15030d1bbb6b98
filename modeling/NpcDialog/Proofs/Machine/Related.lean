import NpcDialog.Dialog.Context

/-!
# Runs in related conversations

All that a machine does with the conversation it takes part in is to call
callbacks and to tell how it uses the process.  So a relation between conversations
that these respect is respected by everything else: in related conversations a machine gives the same
answers, and it leaves them related.  One case for each way of running a machine
says so, up to a whole turn of a script.

* `Conversing.Respects` — the same answers in related conversations.
* `Respected` — every callback respects the relation, and every use of the process.
* `Respected.run`, `Respected.turn` — so does a run, and so does a turn.
* `Respected.of_invariant` — a property that they keep, as such a relation.
-/

namespace NpcDialog

open Lua

namespace Conversing

variable {α β : Type}

@[simp] theorem pure_apply (a : α) (v : Conversation) : (pure a : Conversing α) v = (a, v) := rfl

@[simp] theorem bind_apply (x : Conversing α) (f : α → Conversing β) (v : Conversation) :
    (x >>= f) v = f (x v).1 (x v).2 := rfl

@[simp] theorem map_apply (f : α → β) (x : Conversing α) (v : Conversation) :
    (f <$> x) v = (f (x v).1, (x v).2) := rfl

@[simp] theorem get_apply (v : Conversation) : (get : Conversing Conversation) v = (v, v) := rfl

@[simp] theorem tell_apply (r : Report) (v : Conversation) : tell r v = ((), v.tell r) := rfl

end Conversing

/-- The second conversation is the first one, but for reports that standard streams were
used. -/
structure Conversation.OnlyStreams (v w : Conversation) : Prop where
  identities : w.identities = v.identities
  reports : ∃ used, (∀ r ∈ used, r = Report.process .streams) ∧
    w.reports.toList = v.reports.toList ++ used

namespace Conversation.OnlyStreams

theorem refl (v : Conversation) : OnlyStreams v v := ⟨rfl, [], by simp⟩

theorem of_tell {v w : Conversation} (h : OnlyStreams (v.tell (.process .streams)) w) :
    OnlyStreams v w := by
  obtain ⟨used, only, reports⟩ := h.reports
  refine ⟨h.identities, .process .streams :: used, by simpa using only, ?_⟩
  simpa [Conversation.tell] using reports

end Conversation.OnlyStreams

/-- The same answer in related conversations, which stay related. -/
def Conversing.Respects (R : Conversation → Conversation → Prop) {α : Type} (x : Conversing α) :
    Prop :=
  ∀ v w, R v w → (x v).1 = (x w).1 ∧ R (x v).2 (x w).2

namespace Conversing.Respects

variable {R : Conversation → Conversation → Prop} {α β : Type}

theorem pure (a : α) : Respects R (Pure.pure a : Conversing α) := fun _ _ h => ⟨rfl, h⟩

theorem bind {x : Conversing α} {f : α → Conversing β} (hx : Respects R x)
    (hf : ∀ a, Respects R (f a)) : Respects R (x >>= f) := by
  intro v w h
  obtain ⟨same, h⟩ := hx v w h
  rw [bind_apply, bind_apply, same]
  exact hf _ _ _ h

end Conversing.Respects

open Conversing (Respects)

/-- What a script's turn comes to, given how it left the coroutine. -/
def Context.took (thread : Nat) :
    Except Fault (Array Value) × Machine → Conversing (TaskState × Option Failure × Machine)
  | (.ok _, m) =>
    return (if m.liveness thread == .suspended then .suspended else .completed, none, m)
  | (.error f, m) => do
    let (e, m) ← failureOf f m
    return (.failed, some e, m)

theorem Context.turn_eq (thread : Nat) (m : Machine) :
    turn thread m = m.resumeThread thread #[] >>= took thread := by
  refine congrArg (m.resumeThread thread #[] >>= ·) (funext fun answer => ?_)
  obtain ⟨result, m'⟩ := answer
  cases result <;> rfl

theorem Lua.Machine.invoke_of_none {m : Machine} {v : Conversation} (h : m.scope? v = none)
    (c : Callback) (args : Array Value) :
    m.invoke c args v = (false, v.tell (.line (.noContext c))) := by
  simp [invoke, h]

theorem Lua.Machine.invoke_of_some {m : Machine} {v : Conversation} {s : InteractionScope}
    (h : m.scope? v = some s) (c : Callback) (args : Array Value) :
    m.invoke c args v = ((s.answer c args).2,
      (v.tell (.line (.called c s.entity s.session s.context))).tell (s.answer c args).1) := by
  simp [invoke, h]

/-- A relation between conversations that every callback respects, whatever the
machine is that calls it, and every use of the process. -/
structure Respected (R : Conversation → Conversation → Prop) : Prop where
  callback : ∀ (m : Machine) (c : Callback) (args : Array Value), Respects R (m.invoke c args)
  process : ∀ u : ProcessUse, Respects R (Conversing.tell (.process u))

/-- A way of running machines that respects a relation between conversations. -/
def Runner.Respects (R : Conversation → Conversation → Prop) (run : Runner) : Prop :=
  ∀ m, Conversing.Respects R (run m)

variable {R : Conversation → Conversation → Prop}

/-! ## Calls in the middle of a routine -/

section Routines

variable {run : Runner} (hrun : Runner.Respects R run)
include hrun

theorem respects_nestedCall (start : Nat) (f : Value) (args : Array Value) (m : Machine) :
    Respects R (Machine.nestedCall run start f args m) := by
  refine .bind (hrun _) fun answer => ?_
  obtain ⟨stop, m'⟩ := answer
  cases stop <;> exact .pure _

/-- The induction is on the bound for the variables. -/
theorem respects_closeAll (floor n : Nat) (fault : Option Value) (m : Machine) :
    Respects R (Machine.closeAll run floor n fault m) := by
  induction n generalizing fault m with
  | zero => exact .pure _
  | succ n ih =>
    simp only [Machine.closeAll]
    split
    · split
      · refine .bind (respects_nestedCall hrun _ _ _ _) fun answer => ?_
        obtain ⟨result, m'⟩ := answer
        cases result with
        | ok vs => exact ih _ _
        | error e => exact ih _ _
      · exact .pure _
    · exact .pure _

theorem respects_attemptCall (start : Nat) (f : Value) (args : Array Value) (m : Machine) :
    Respects R (Machine.attemptCall run start f args m) := by
  refine .bind (respects_nestedCall hrun _ _ _ _) fun answer => ?_
  obtain ⟨result, m'⟩ := answer
  cases result with
  | ok vs => exact .pure _
  | error e => exact .bind (respects_closeAll hrun _ _ _ _) fun _ => .pure _

theorem respects_finalize (start id : Nat) (m : Machine) :
    Respects R (Machine.finalize run start id m) := by
  simp only [Machine.finalize]
  split
  · exact .pure _
  · exact .bind (respects_attemptCall hrun _ _ _ _) fun _ => .pure _

/-- The induction is on the tables. -/
theorem respects_finalizeAll (start : Nat) (ids : List Nat) (m : Machine) :
    Respects R (Machine.finalizeAll run start ids m) := by
  induction ids generalizing m with
  | nil => exact .pure _
  | cons id ids ih => exact .bind (respects_finalize hrun start id m) ih

theorem respects_collect (slots : Nat) (m : Machine) : Respects R (m.collect run slots) :=
  .bind (respects_finalizeAll hrun _ _ _) fun _ => .pure _

theorem respects_resume (id : Nat) (args : Array Value) (m : Machine) :
    Respects R (Machine.resume run id args m) := by
  unfold Machine.resume
  cases m.entered id args with
  | error f => exact .pure _
  | ok inner => exact .bind (hrun _) fun _ => .pure _

theorem respects_closeThread (id : Nat) (m : Machine) :
    Respects R (Machine.closeThread run id m) := by
  simp only [Machine.closeThread]
  split
  · exact .bind (respects_closeAll hrun _ _ _ _) fun _ => .pure _
  · exact .pure _

end Routines

/-! ## Steps and runs -/

section Steps

variable {run : Runner} (hR : Respected R) (hrun : Runner.Respects R run)
include hR hrun

/-- The induction is on the routine: each of its steps is pure work, a call of
the kinds above, or a callback. -/
theorem respects_perform (callee : Value) (start : Nat) (r : Routine) (m : Machine) :
    Respects R (perform run callee start r m) := by
  induction r generalizing m with
  | done e => exact .pure _
  | fail f => exact .pure _
  | heap f k ih => exact ih _ _
  | call f args k ih =>
    simp only [perform]
    refine .bind (respects_nestedCall hrun _ _ _ _) fun answer => ?_
    obtain ⟨result, m'⟩ := answer
    cases result with
    | ok vs => exact ih _ _
    | error e => exact .pure _
  | attempt f args k ih => exact .bind (respects_attemptCall hrun _ _ _ _) fun _ => ih _ _
  | host c args k ih => exact .bind (hR.callback m c args) fun _ => ih _ _
  | process u k ih => exact .bind (hR.process u) fun _ => ih _
  | room k ih => exact ih _ _
  | install c env k ih => exact ih _ _
  | code f strip k ih => exact ih _ _
  | place level k ih => exact ih _ _
  | create f k ih => exact ih _ _
  | resume id args k ih =>
    simp only [perform]
    refine .bind (respects_resume hrun _ _ _) fun answer => ?_
    obtain ⟨result, m'⟩ := answer
    cases result with
    | ok vs => exact ih _ _
    | error f => exact ih _ _
  | liveness id k ih => exact ih _ _
  | broken id k ih => exact ih _ _
  | close id k ih => exact .bind (respects_closeThread hrun _ _) fun _ => ih _ _
  | running k ih => exact ih _ _
  | canSuspend id k ih => exact ih _ _
  | memory k ih => exact ih _ _
  | collect k ih => exact .bind (respects_collect hrun _ _) ih

theorem respects_begin (m : Machine) (f : Value) (args : Array Value) (start : Nat)
    (deliver : Deliver) (nested : Bool) :
    Respects R (Machine.begin run m f args start deliver nested) := by
  simp only [Machine.begin]
  split
  · exact .pure _
  · split
    · exact .pure _
    · split
      · split <;> exact .pure _
      · exact .bind (respects_perform hR hrun _ _ _ _) fun _ => .pure _
      · split
        · exact .pure _
        · exact .bind (respects_perform hR hrun _ _ _ _) fun _ => .pure _
      · split
        · exact .pure _
        · split <;> exact .pure _

omit hR in
theorem respects_handle (m : Machine) (f : Fault) : Respects R (Machine.handle run m f) := by
  unfold Machine.handle
  split
  case h_5 =>
    refine .bind (respects_nestedCall hrun _ _ _ _) fun answer => ?_
    obtain ⟨result, m'⟩ := answer
    cases result <;> exact .pure _
  all_goals exact .pure _

theorem respects_step (m : Machine) : Respects R (m.step run) := by
  unfold Machine.step
  split
  · exact .pure _
  · exact respects_begin hR hrun _ _ _ _ _ _
  · exact .pure _
  · exact respects_handle hrun _ _
  · exact .pure _

/-- The induction is on the number of steps. -/
theorem respects_loop (n : Nat) (m : Machine) : Respects R (Machine.loop run n m) := by
  induction n generalizing m with
  | zero => exact .pure _
  | succ n ih =>
    refine .bind (respects_step hR hrun m) fun s => ?_
    cases s with
    | next m' => exact ih m'
    | stop s m' => exact .pure _

end Steps

namespace Respected

variable (hR : Respected R)
include hR

/-- The induction is on the levels of nested runs. -/
theorem runWithin (n : Nat) : Runner.Respects R (Machine.runWithin n) := by
  induction n with
  | zero => exact fun _ => .pure _
  | succ n ih => exact fun m => respects_loop hR ih _ m

/-- A run respects what callbacks respect. -/
theorem run : Runner.Respects R Machine.run := hR.runWithin _

theorem abandonCall (f : Fault) (m : Machine) : Respects R (m.abandonCall f) := by
  simp only [Machine.abandonCall]
  split
  · exact .pure _
  · exact .bind (respects_closeAll hR.run _ _ _ _) fun _ => .pure _

theorem callMain (f : Value) (args : Array Value) (m : Machine) :
    Respects R (m.callMain f args) := by
  refine .bind (hR.run _) fun answer => ?_
  obtain ⟨stop, m'⟩ := answer
  cases stop with
  | returned vs => exact .pure _
  | suspended vs deliver => exact .pure _
  | failed f => exact .bind (hR.abandonCall _ _) fun _ => .pure _

theorem callFrom (f : Value) (args : Array Value) (m : Machine) :
    Respects R (m.callFrom f args) := by
  refine .bind (hR.callMain _ _ _) fun answer => ?_
  obtain ⟨result, m'⟩ := answer
  cases result <;> exact .pure _

theorem failureOf (f : Fault) (m : Machine) : Respects R (Context.failureOf f m) := by
  unfold Context.failureOf
  split
  · exact .pure _
  · split
    · exact .pure _
    · refine .bind (hR.callFrom _ _ _) fun answer => ?_
      obtain ⟨result, m'⟩ := answer
      cases result with
      | error e => exact .pure _
      | ok vs =>
        dsimp only
        split <;> exact .pure _

theorem took (thread : Nat) (answer : Except Fault (Array Value) × Machine) :
    Respects R (Context.took thread answer) := by
  obtain ⟨result, m⟩ := answer
  cases result with
  | ok vs => exact .pure _
  | error f => exact .bind (hR.failureOf _ _) fun _ => .pure _

/-- A turn of a script respects what callbacks respect. -/
theorem turn (thread : Nat) (m : Machine) : Respects R (Context.turn thread m) := by
  rw [Context.turn_eq]
  exact .bind (respects_resume hR.run _ _ _) (hR.took thread)

/-- So does the end of a machine. -/
theorem release (m : Machine) : Respects R m.release :=
  .bind (respects_collect hR.run _ _) fun _ => respects_finalizeAll hR.run _ _ _

omit hR in
/-- A property of conversations that every callback keeps, and every use of the process,
is a relation that they respect, between equal conversations. -/
theorem of_invariant {I : Conversation → Prop}
    (h : ∀ (m : Machine) (c : Callback) (args : Array Value) (v : Conversation), I v →
      I (m.invoke c args v).2)
    (told : ∀ (u : ProcessUse) (v : Conversation), I v → I (v.tell (.process u))) :
    Respected fun v w => v = w ∧ I v := by
  constructor
  · rintro m c args v _ ⟨rfl, hv⟩
    exact ⟨rfl, rfl, h m c args v hv⟩
  · rintro u v _ ⟨rfl, hv⟩
    exact ⟨rfl, rfl, told u v hv⟩

end Respected

end NpcDialog
