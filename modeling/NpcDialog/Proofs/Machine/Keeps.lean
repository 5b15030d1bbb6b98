import NpcDialog.Proofs.Machine.Seat

/-!
# What runs keep

While a built-in function is performed other coroutines may run, and calls may
keep the running one from being suspended.  In the end all of this is as before.
So there are relations between a machine and a later one that need to be shown of
these few brackets only: of a nested call, of another coroutine's turn, of its
end.  Then they hold of all runs.

One of them is that the same coroutine runs and that the same calls keep it.  So a
run can end with the coroutine suspended only if no call kept it when the run
began.

* `Conversing.Ensures` — a property of the answer in every conversation.
* `Machine.Bracketed` — a relation that the brackets keep.
* `Step.Seated`, `Bracketed.step` — what a step does.
* `Bracketed.runWithin` — runs keep such a relation.
* `Machine.Keeps` — the same coroutine, kept by as many calls.
* `runWithin_not_suspended` — a run that does not suspend.
-/

namespace NpcDialog

open Lua

/-! ## What holds after an action -/

/-- A property of the answer in every conversation. -/
def Conversing.Ensures {α : Type} (P : α → Prop) (x : Conversing α) : Prop := ∀ v, P (x v).1

namespace Conversing.Ensures

variable {α β : Type} {P : α → Prop} {Q : β → Prop}

theorem pure {a : α} (h : P a) : Ensures P (Pure.pure a : Conversing α) := fun _ => h

/-- What the second of two runs ensures both ensure, with what the first one ensures as
a premise. -/
theorem bind {x : Conversing α} {f : α → Conversing β} (hx : Ensures P x)
    (hf : ∀ a, P a → Ensures Q (f a)) : Ensures Q (x >>= f) := fun v => hf _ (hx v) _

end Conversing.Ensures

open Conversing (Ensures)

namespace Lua.Machine

/-! ## Brackets -/

/-- A relation between a machine and a later one that every change keeps, and the
brackets around a run: those of a nested call, of another coroutine's turn, and of its
end. -/
structure Bracketed (R : Machine → Machine → Prop) : Prop where
  of_change : ∀ {m m' : Machine}, Change m m' → R m m'
  disclosing : ∀ (m : Machine) (d : Disclosures), R m (m.disclosing d)
  trans : ∀ {m m' m'' : Machine}, R m m' → R m' m'' → R m m''
  held : ∀ {m m' : Machine}, R m m' → m'.held = m.held
  nested : ∀ {m m' : Machine} {held : Nat},
    R { m with held, frames := .boundary :: m.heldFrames } m' →
      R m { m' with held := m.held, frames := m.heldFrames }
  newThread : ∀ (m : Machine) (f : Value), R m (m.newThread f).2
  turn : ∀ {m inner inner' : Machine} {id : Nat} {args : Array Value} (stop : Stop),
    m.entered id args = .ok inner → R inner inner' → R m (m.handBack stop inner').2
  close : ∀ {m m' : Machine} {id : Nat}, R { (m.park .active).unpark id with held := 1 } m' →
    R m { (m'.park .finished).unpark m.current with held := m.held }

@[simp] theorem current_withFrames (m : Machine) (frames : List Frame) :
    (m.withFrames frames).current = m.current := congrArg Prod.fst (seat_withFrames m frames)

@[simp] theorem threads_withFrames (m : Machine) (frames : List Frame) :
    (m.withFrames frames).threads = m.threads := by
  unfold withFrames
  split <;> rfl

@[simp] theorem turns_withFrames (m : Machine) (frames : List Frame) :
    (m.withFrames frames).turns = m.turns := congrArg (·.2.2.2.1) (seat_withFrames m frames)

@[simp] theorem shown_withFrames (m : Machine) (frames : List Frame) :
    (m.withFrames frames).shown = m.shown := congrArg (·.2.2.2.2) (seat_withFrames m frames)

theorem current_unpark (m : Machine) (id : Nat) : (m.unpark id).current = id := by
  simp [unpark]

theorem size_park (m : Machine) (status : ThreadStatus) :
    (m.park status).threads.size = m.threads.size := by
  simp [park]

theorem size_unpark (m : Machine) (id : Nat) : (m.unpark id).threads.size = m.threads.size := by
  simp [unpark]

/-- A coroutine that stops running is up to something else, and the others are not. -/
theorem seat_park (m : Machine) (status : ThreadStatus) : (m.park status).seat =
    (m.current, m.held, (m.threads.map Thread.status).setIfInBounds m.current status, m.turns,
      m.shown) := by
  simp [seat, park, Array.map_setIfInBounds]

/-- A coroutine that goes on is the one that runs. -/
theorem seat_unpark (m : Machine) (id : Nat) : (m.unpark id).seat =
    (id, m.held, (m.threads.map Thread.status).setIfInBounds id .active, m.turns, m.shown) := by
  have held : ∀ (m : Machine) (frames : List Frame), (m.withFrames frames).held = m.held :=
    fun m frames => congrArg (·.2.1) (seat_withFrames m frames)
  simp [seat, unpark, Array.map_setIfInBounds, Thread.empty, held]

end Lua.Machine

open Lua.Machine

/-- A way of running machines that keeps a relation. -/
def Runner.Keeps (R : Machine → Machine → Prop) (run : Runner) : Prop :=
  ∀ m, Ensures (fun answer => R m answer.2) (run m)

namespace Lua.Machine.Bracketed

variable {R : Machine → Machine → Prop} (b : Bracketed R)
include b

/-- What is bracketed holds of a change that keeps the core. -/
theorem of_core {m m' : Machine} (same : m'.core = m.core) : R m m' := b.of_change (.light same)

theorem refl (m : Machine) : R m m := b.of_core rfl

theorem showing (m : Machine) (told : Bool) : R m (m.showing told) := b.disclosing m _

/-- The induction is on the changes. -/
theorem of_changes {m m' : Machine} (changes : Changes m m') : R m m' := by
  induction changes with
  | refl => exact b.refl m
  | tail before last ih => exact b.trans ih (b.of_change last)

/-- And from a machine with the same core on. -/
theorem after {m m' m'' : Machine} (kept : R m' m'') (same : m'.core = m.core) : R m m'' :=
  b.trans (b.of_core same) kept

section Routines

variable {run : Runner} (hrun : Runner.Keeps R run)
include hrun

/-- A nested call brackets what its own run keeps. -/
theorem nestedCall (start : Nat) (f : Value) (args : Array Value) (m : Machine) :
    Ensures (fun answer => R m answer.2) (Machine.nestedCall run start f args m) := by
  refine .bind (hrun _) fun answer kept => ?_
  obtain ⟨stop, m'⟩ := answer
  have inner : R { m with held := m.held + 1, frames := .boundary :: m.heldFrames } m' :=
    b.after kept rfl
  have outer := b.nested inner
  cases stop <;> exact .pure (b.trans outer (b.of_core rfl))

/-- The induction is on the bound for the variables. -/
theorem closeAll (floor n : Nat) (fault : Option Value) (m : Machine) :
    Ensures (fun answer => R m answer.2) (Machine.closeAll run floor n fault m) := by
  induction n generalizing fault m with
  | zero => exact .pure (b.refl m)
  | succ n ih =>
    simp only [Machine.closeAll]
    split
    · next s rest _ =>
      have popped : R m { m with closers := rest } := b.of_core rfl
      split
      · refine .bind (b.nestedCall hrun _ _ _ _) fun answer kept => ?_
        obtain ⟨result, m'⟩ := answer
        have called : R m m' := b.trans popped kept
        cases result with
        | ok vs => exact fun v => b.trans called (ih _ _ v)
        | error e => exact fun v => b.trans called (b.trans (b.showing m' _) (ih _ _ v))
      · exact .pure (b.refl m)
    · exact .pure (b.refl m)

/-- So does one whose faults are answers, with the variables that are closed after a
fault. -/
theorem attemptCall (start : Nat) (f : Value) (args : Array Value) (m : Machine) :
    Ensures (fun answer => R m answer.2) (Machine.attemptCall run start f args m) := by
  refine .bind (b.nestedCall hrun _ _ _ _) fun answer kept => ?_
  obtain ⟨result, m'⟩ := answer
  cases result with
  | ok vs => exact .pure kept
  | error e =>
    refine .bind (b.closeAll hrun _ _ _ _) fun answer closed => ?_
    have shown : R m (m'.showing e.isPlaced) := b.trans kept (b.showing m' _)
    exact .pure (b.trans (b.trans shown (b.of_change (.closeCells start))) closed)

/-- A finalizer is called with a handler of its own, which brackets make nothing of. -/
theorem finalize (start id : Nat) (m : Machine) :
    Ensures (fun m' => R m m') (Machine.finalize run start id m) := by
  simp only [Machine.finalize]
  split
  · exact .pure (b.refl m)
  · refine .bind (b.attemptCall hrun _ _ _ _) fun answer kept => .pure ?_
    exact b.trans (b.after kept rfl) (b.of_core rfl)

/-- The induction is on the tables. -/
theorem finalizeAll (start : Nat) (ids : List Nat) (m : Machine) :
    Ensures (fun m' => R m m') (Machine.finalizeAll run start ids m) := by
  induction ids generalizing m with
  | nil => exact .pure (b.refl m)
  | cons id ids ih =>
    exact .bind (b.finalize hrun start id m) fun m' kept v => b.trans kept (ih m' v)

/-- Besides finalizers, a collection works on the heap only. -/
theorem collect (slots : Nat) (m : Machine) :
    Ensures (fun m' => R m m') (Machine.collect run slots m) := by
  refine .bind (b.finalizeAll hrun _ _ _) fun m' kept => .pure ?_
  exact b.trans (b.after kept rfl) (b.of_core rfl)

/-- The coroutine that resumes another one runs again afterwards. -/
theorem resume (id : Nat) (args : Array Value) (m : Machine) :
    Ensures (fun answer => R m answer.2) (Machine.resume run id args m) := by
  unfold Machine.resume
  cases h : m.entered id args with
  | error f => exact .pure (b.refl m)
  | ok inner =>
    refine .bind (hrun inner) fun answer kept => ?_
    exact .pure (b.turn answer.1 h kept)

/-- So does the end of a coroutine that will not be resumed. -/
theorem closeThread (id : Nat) (m : Machine) :
    Ensures (fun answer => R m answer.2) (Machine.closeThread run id m) := by
  simp only [Machine.closeThread]
  split
  · next status _ =>
    have shown : R m (m.showing (status.fault?.any Fault.isPlaced)) := b.showing m _
    generalize m.showing (status.fault?.any Fault.isPlaced) = m₀ at shown ⊢
    refine .bind (b.closeAll hrun _ _ _ _) fun answer kept => .pure (b.trans shown ?_)
    obtain ⟨left, m'⟩ := answer
    have emptied : Changes { (m₀.park .active).unpark id with held := 1 }
        { (m₀.park .active).unpark id with
          frames := [], depth := m₀.depth + 1, held := 1, handler := none } :=
      changes_calls (List.nil_subset _) rfl
    have inner : R { (m₀.park .active).unpark id with held := 1 } m' :=
      b.trans (b.of_changes (emptied.tail (.closeCells 0))) kept
    have left : R { (m₀.park .active).unpark id with held := 1 }
        { m' with stack := #[], top := 1 } := b.trans inner (b.of_core rfl)
    exact b.trans (b.close left) (b.of_core rfl)
  · exact .pure (b.refl m)

/-- The induction is on the routine: each step is performed on a machine that is
related to the first one. -/
theorem perform (callee : Value) (start : Nat) (r : Routine) (m : Machine) :
    Ensures (fun answer => R m answer.2) (perform run callee start r m) := by
  induction r generalizing m with
  | done e => exact .pure (b.refl m)
  | fail f => exact .pure (b.refl m)
  | heap f k ih =>
    have worked : R m (m.withHeap (f m.heap.toHeap).2) := b.of_core rfl
    exact fun v => b.trans worked (ih _ _ v)
  | call f args k ih =>
    rw [Lua.perform]
    refine .bind (b.nestedCall hrun _ _ _ _) fun answer kept => ?_
    obtain ⟨result, m'⟩ := answer
    cases result with
    | ok vs => exact fun v => b.trans kept (ih _ _ v)
    | error e => exact .pure kept
  | attempt f args k ih =>
    exact .bind (b.attemptCall hrun _ _ _ _) fun _ kept v => b.trans kept (ih _ _ v)
  | host c args k ih =>
    exact .bind (P := fun _ => True) (fun _ => trivial) fun _ _ => ih _ _
  | process u k ih =>
    have done : R m (m.doing u) := b.of_core rfl
    exact .bind (P := fun _ => True) (fun _ => trivial) fun _ _ v => b.trans done (ih _ v)
  | room k ih => exact ih _ _
  | install c env k ih =>
    exact fun v => b.trans (b.of_change (.install c _)) (ih _ _ v)
  | code f strip k ih => exact fun v => b.trans (b.showing m _) (ih _ _ v)
  | place level k ih => exact fun v => b.trans (b.showing m _) (ih _ _ v)
  | create f k ih => exact fun v => b.trans (b.newThread m f) (ih _ _ v)
  | resume id args k ih =>
    rw [Lua.perform]
    refine .bind (b.resume hrun _ _ _) fun answer kept => ?_
    obtain ⟨result, m'⟩ := answer
    cases result with
    | ok vs => exact fun v => b.trans kept (ih _ _ v)
    | error f => exact fun v => b.trans kept (b.trans (b.showing m' _) (ih _ _ v))
  | liveness id k ih => exact ih _ _
  | broken id k ih => exact ih _ _
  | close id k ih =>
    exact .bind (b.closeThread hrun _ _) fun _ kept v => b.trans kept (ih _ _ v)
  | running k ih => exact ih _ _
  | canSuspend id k ih => exact ih _ _
  | memory k ih => exact fun v => b.trans (b.disclosing m _) (ih _ _ v)
  | collect k ih => exact .bind (b.collect hrun _ _) fun _ kept v => b.trans kept (ih _ v)

end Routines

end Lua.Machine.Bracketed

/-! ## Steps -/

/-- Does a step end the run with the coroutine suspended? -/
def Lua.Step.suspends : Step → Bool
  | .stop (.suspended _ _) _ => true
  | _ => false

/-- What a step does: it keeps a relation, and it ends with the coroutine suspended
only if no call keeps the coroutine. -/
structure Lua.Step.Seated (R : Machine → Machine → Prop) (m : Machine) (s : Step) : Prop where
  keeps : R m s.machine
  suspends : s.suspends = true → m.held = 0

namespace Lua.Machine

variable (m : Machine)

/-- A built-in function suspends only where no call keeps the coroutine. -/
theorem concluded_suspends (o : Outcome) (start : Nat) (deliver : Deliver) (depth : Nat)
    (suspends : (m.concluded o start deliver depth).suspends = true) : m.held = 0 := by
  unfold concluded at suspends
  split at suspends
  case h_4 =>
    split at suspends
    · next free => simpa using free
    · cases suspends
  all_goals cases suspends

theorem giveOnward_suspends (vs : Array Value) : (m.giveOnward vs).suspends = false := by
  unfold giveOnward
  split
  · split
    · rfl
    · split
      · split <;> rfl
      · rfl
  · rfl
  · rfl

/-- To hand results on never suspends. -/
theorem give_suspends (vs : Array Value) (deliver : Deliver) :
    (m.give vs deliver).suspends = false := by
  unfold give
  cases deliver with
  | slots start wanted => cases wanted <;> rfl
  | onward => exact giveOnward_suspends _ vs
  | _ => rfl

/-- Behind a protected call are frames that were there. -/
theorem subset_of_protectionOf {frames : List Frame} {p : Protection} {rest : List Frame}
    (found : protectionOf frames = some (p, rest)) : rest ⊆ frames := by
  induction frames with
  | nil => cases found
  | cons frame others ih =>
    cases frame with
    | boundary => cases found
    | protect q =>
      cases found
      exact List.subset_cons_self _ _
    | lua a => exact List.Subset.trans (ih found) (List.subset_cons_self _ _)
    | pass after depth deliver => exact List.Subset.trans (ih found) (List.subset_cons_self _ _)

@[simp] theorem frames_showing (m : Machine) (told : Bool) : (m.showing told).frames = m.frames :=
  rfl

/-- A fault on its way never suspends. -/
theorem unwind_suspends (f : Fault) : (m.unwind f).suspends = false := by
  unfold unwind
  split <;> rfl

/-- A function of the program does not suspend by itself. -/
theorem advance_suspends : m.advance.suspends = false := by
  unfold advance
  split
  · rfl
  · split
    · split <;> rfl
    · rfl

end Lua.Machine

namespace Lua.Machine.Bracketed

variable {R : Machine → Machine → Prop} (b : Bracketed R)
include b

/-- A step that never suspends is bracketed by its changes. -/
theorem seated_of_changes {m : Machine} {s : Step} (changes : Changes m s.machine)
    (never : s.suspends = false) : Step.Seated R m s :=
  ⟨b.of_changes changes, fun suspends => by simp [never] at suspends⟩

theorem seated_of_core {m m' : Machine} (same : m'.core = m.core) :
    Step.Seated R m (.next m') :=
  b.seated_of_changes (.light same) rfl

/-- The end of a built-in function. -/
theorem concluded (m : Machine) (o : Outcome) (start : Nat) (deliver : Deliver) (depth : Nat) :
    Step.Seated R m (m.concluded o start deliver depth) :=
  ⟨b.of_changes (changes_concluded m o start deliver depth),
    concluded_suspends m o start deliver depth⟩

section Steps

variable {run : Runner} (hrun : Runner.Keeps R run)
include hrun

/-- A built-in function, from its call to its end. -/
theorem performed (m : Machine) (f : Value) (r : Routine) (start : Nat) (deliver : Deliver)
    (depth before : Nat) :
    Ensures (Step.Seated R m)
      (Lua.perform run f start r { m with depth, control := .run } >>= fun answer =>
        pure (answer.2.concluded answer.1 start deliver before)) := by
  refine .bind (b.perform hrun _ _ _ _) fun answer kept => .pure ?_
  have performed : R m answer.2 := b.after kept rfl
  have seated := b.concluded answer.2 answer.1 start deliver before
  refine ⟨b.trans performed seated.keeps, fun suspends => ?_⟩
  rw [← b.held performed]
  exact seated.suspends suspends

/-- The beginning of a call. -/
theorem begin (m : Machine) (f : Value) (args : Array Value) (start : Nat)
    (deliver : Deliver) (nested : Bool) :
    Ensures (Step.Seated R m) (Machine.begin run m f args start deliver nested) := by
  simp only [Machine.begin]
  split
  · exact .pure (b.seated_of_core rfl)
  · split
    · exact .pure (b.seated_of_core rfl)
    · split
      · split
        · exact .pure (b.seated_of_core rfl)
        · refine .pure (b.seated_of_changes (Changes.after ?_ (changes_enter _ _ _ _ _ _ ?_)) rfl)
          · simp [core_depth]
          · intro a mem
            exact (knows_heldFrames _ mem).of_core (by simp)
      · exact b.performed hrun m _ _ _ _ _ _
      · split
        · exact .pure (b.seated_of_core rfl)
        · exact b.performed hrun m _ _ _ _ _ _
      · split
        · exact .pure (b.seated_of_core rfl)
        · split <;> exact .pure (b.seated_of_core rfl)

/-- A handler that sees a fault. -/
theorem handle (m : Machine) (f : Fault) :
    Ensures (Step.Seated R m) (Machine.handle run m f) := by
  unfold Machine.handle
  split
  case h_5 =>
    refine .bind (b.nestedCall hrun _ _ _ _) fun answer kept => ?_
    obtain ⟨result, m'⟩ := answer
    have called : R m m' := b.trans (b.showing m _) kept
    cases result <;> exact .pure ⟨b.trans called (b.of_core rfl), nofun⟩
  all_goals exact .pure (b.seated_of_core rfl)

omit hrun in
/-- A fault that takes calls away. -/
theorem unwind (m : Machine) (f : Fault) : Step.Seated R m (m.unwind f) := by
  refine ⟨?_, fun suspends => by simp [unwind_suspends] at suspends⟩
  unfold Machine.unwind
  split
  · exact b.refl m
  · exact b.refl m
  · next f _ _ p rest _ found =>
    refine b.trans (b.showing m f.isPlaced) (b.trans (b.of_change (.closeCells p.floor)) ?_)
    refine b.of_change (.calls (.protect { p with caught := some f.toValue } :: rest) ?_ rfl)
    rintro a (_ | ⟨_, mem⟩)
    refine knows_of_sublist _ (fun frame mem => ?_) mem
    rw [frames_closeCells, frames_showing]
    exact subset_of_protectionOf found mem

/-- What a step does, whatever it is. -/
theorem step (m : Machine) : Ensures (Step.Seated R m) (m.step run) := by
  unfold Machine.step
  have stilled : R m { m with control := .run } := b.of_core rfl
  split
  · exact .pure (b.seated_of_changes (changes_advance m) (advance_suspends m))
  · intro v
    obtain ⟨keeps, suspends⟩ := b.begin hrun { m with control := .run } _ _ _ _ _ v
    exact ⟨b.trans stilled keeps, suspends⟩
  · exact .pure (b.seated_of_changes (changes_give m _ _) (give_suspends m _ _))
  · intro v
    obtain ⟨keeps, suspends⟩ := b.handle hrun { m with control := .run } _ v
    exact ⟨b.trans stilled keeps, suspends⟩
  · exact .pure (b.unwind m _)

/-! ## Runs -/

/-- The induction is on the bound for the steps. -/
theorem loop (n : Nat) (m : Machine) :
    Ensures (fun answer => R m answer.2) (Machine.loop run n m) := by
  induction n generalizing m with
  | zero => exact .pure (b.refl m)
  | succ n ih =>
    refine .bind (b.step hrun m) fun s seated => ?_
    cases s with
    | next m' => exact fun v => b.trans seated.keeps (ih m' v)
    | stop s m' => exact .pure seated.keeps

/-- The induction is on the bound for the steps, all of which are made while the
coroutine is kept. -/
theorem loop_not_suspended (n : Nat) {m : Machine} (kept : m.held ≠ 0) :
    Ensures (fun answer => ∀ vs deliver, answer.1 ≠ .suspended vs deliver)
      (Machine.loop run n m) := by
  induction n generalizing m with
  | zero => exact .pure nofun
  | succ n ih =>
    refine .bind (b.step hrun m) fun s seated => ?_
    cases s with
    | next m' =>
      have held : m'.held = m.held := b.held seated.keeps
      exact ih (by rwa [held])
    | stop s m' =>
      cases s with
      | suspended vs deliver => exact absurd (seated.suspends rfl) kept
      | _ => exact .pure nofun

end Steps

/-- A run keeps such a relation, whatever the number of levels below it. -/
theorem runWithin (n : Nat) : Runner.Keeps R (Machine.runWithin n) := by
  induction n with
  | zero => exact fun m => .pure (b.refl m)
  | succ n ih => exact fun m => b.loop ih stepBudget m

/-! ## Calls from outside -/

theorem rested {m m' : Machine} (kept : R m.rested m') : R m.rested m'.rested := by
  have held : m'.held = 1 := b.held kept
  refine b.trans kept (b.of_change (.calls [] nofun ?_))
  simp only [core, Machine.rested, held]

theorem abandonCall (f : Fault) (m : Machine) :
    Ensures (fun answer => R m.rested answer.2) (m.abandonCall f) := by
  have closed : R m.rested (m.guarded.closeCells 0) :=
    b.after (b.of_change (Change.closeCells (m := m.guarded) 0)) rfl
  simp only [Machine.abandonCall]
  split
  · exact .pure (b.rested closed)
  · refine .bind (b.closeAll (b.runWithin levels) _ _ _ _) fun answer kept => .pure ?_
    have shown : R (m.guarded.closeCells 0) answer.2 := b.trans (b.showing _ _) kept
    exact b.rested (b.trans closed shown)

/-- A call of the host, with the main thread's calls over behind it. -/
theorem callMain (f : Value) (args : Array Value) (m : Machine) :
    Ensures (fun answer => R m.rested answer.2) (m.callMain f args) := by
  refine .bind (b.runWithin levels _) fun answer kept => ?_
  obtain ⟨stop, m'⟩ := answer
  have rested : R m.rested m'.rested := b.rested (b.after kept rfl)
  cases stop with
  | returned vs => exact .pure rested
  | suspended vs deliver => exact .pure rested
  | failed f =>
    refine .bind (b.abandonCall f m') fun answer left => .pure ?_
    exact b.trans rested left

theorem callFrom (m : Machine) (f : Value) (args : Array Value) :
    Ensures (fun answer => R m.rested answer.2) (m.callFrom f args) := by
  refine .bind (b.callMain f args m) fun answer kept => ?_
  obtain ⟨result, m'⟩ := answer
  cases result <;> exact .pure kept

end Lua.Machine.Bracketed

/-! ## The same coroutine -/

namespace Lua.Machine

/-- A later machine on which the same coroutine runs, kept from being suspended by
as many calls, among at least as many coroutines. -/
structure Keeps (m m' : Machine) : Prop where
  current : m'.current = m.current
  held : m'.held = m.held
  threads : m.threads.size ≤ m'.threads.size

namespace Keeps

variable {m m' m'' : Machine}

theorem refl (m : Machine) : Keeps m m := ⟨rfl, rfl, Nat.le_refl _⟩

/-- What a machine keeps to another one, and that one to a third, it keeps to the third
one. -/
theorem trans (h : Keeps m m') (h' : Keeps m' m'') : Keeps m m'' :=
  ⟨h'.current.trans h.current, h'.held.trans h.held, Nat.le_trans h.threads h'.threads⟩

/-- What a machine keeps depends on its seat only. -/
theorem of_seat (h : m'.seat = m.seat) : Keeps m m' := by
  injection h with current rest
  injection rest with held rest
  injection rest with threads rest
  have size : m'.threads.size = m.threads.size := by
    simpa using congrArg Array.size threads
  exact ⟨current, held, Nat.le_of_eq size.symm⟩

end Keeps

/-- The machine in which a coroutine has its turn differs in the coroutine's own things
and in the record of turns. -/
theorem entered_eq {id : Nat} {args : Array Value} {m inner : Machine}
    (h : m.entered id args = .ok inner) :
    id ≠ m.current ∧ m.liveness id = .suspended ∧ ∃ control, inner =
      { (m.park .active).unpark id with
        turns := id :: m.turns, depth := m.depth + 1, held := 0, control } := by
  by_cases runs : id = m.current
  · simp [entered, runs] at h
  · have other : (id == m.current) = false := by simpa using runs
    simp only [entered, liveness, other, Bool.false_eq_true, if_false] at h ⊢
    refine ⟨runs, ?_⟩
    generalize (m.threads[id]?).map Thread.status = status at h ⊢
    cases status with
    | none => cases h
    | some status =>
      cases status with
      | fresh f =>
        dsimp only at h ⊢
        split at h <;> cases h
        exact ⟨rfl, _, rfl⟩
      | suspended deliver =>
        dsimp only at h ⊢
        split at h <;> cases h
        exact ⟨rfl, _, rfl⟩
      | _ => cases h

theorem size_entered {id : Nat} {args : Array Value} {m inner : Machine}
    (h : m.entered id args = .ok inner) :
    inner.current = id ∧ inner.held = 0 ∧ inner.threads.size = m.threads.size := by
  obtain ⟨-, -, control, rfl⟩ := entered_eq h
  exact ⟨current_unpark _ _, rfl, by simp [size_unpark, size_park]⟩

/-- The brackets keep the seat. -/
theorem bracketed_keeps : Bracketed Keeps where
  of_change change := .of_seat change.seat
  disclosing m d := ⟨rfl, rfl, Nat.le_refl _⟩
  trans := Keeps.trans
  held := Keeps.held
  nested h := ⟨h.current, rfl, h.threads⟩
  newThread m f := ⟨rfl, rfl, by simp [newThread]⟩
  turn {m inner inner' id args} stop entered kept := by
    refine ⟨current_unpark _ _, rfl, ?_⟩
    calc m.threads.size = inner.threads.size := (size_entered entered).2.2.symm
      _ ≤ inner'.threads.size := kept.threads
      _ = _ := by simp [handBack, size_unpark, size_park]
  close {m m' id} kept := by
    refine ⟨current_unpark _ _, rfl, ?_⟩
    have size := kept.threads
    simp only [size_unpark, size_park] at size ⊢
    exact size

end Lua.Machine

/-- A run keeps the seat, whatever the number of levels below it. -/
theorem keeps_runWithin (n : Nat) : Runner.Keeps Keeps (runWithin n) :=
  bracketed_keeps.runWithin n

/-- A run in which a call keeps the coroutine does not end with the coroutine
suspended. -/
theorem runWithin_not_suspended (n : Nat) {m : Machine} (kept : m.held ≠ 0) :
    Ensures (fun answer => ∀ vs deliver, answer.1 ≠ .suspended vs deliver) (runWithin n m) := by
  cases n with
  | zero => exact .pure nofun
  | succ n => exact bracketed_keeps.loop_not_suspended (keeps_runWithin n) stepBudget kept

end NpcDialog
