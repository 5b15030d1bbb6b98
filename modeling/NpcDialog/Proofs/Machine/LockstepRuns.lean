import NpcDialog.Proofs.Machine.Lockstep

/-!
# Runs in lockstep

A step of a machine is a step of another one that is the same behind a veil.  In the
middle of a step there are runs one level down, so what is to be shown of steps and of
runs is shown of both together, one case for each way of running a machine.

* `Locked.perform`, `Locked.step`, `Locked.loop` — routines, steps and runs.
* `Veil.locked_runWithin` — runs are in lockstep, whatever the levels below them.
* `Same.callMain`, `Same.turn` — so are calls from outside, and a script's turns.
-/

namespace NpcDialog

open Lua
open Conversing (Ensures)

namespace Lua.Veil

variable {V : Veil} {m n : Machine}

namespace Locked

/-! ### Calls in the middle of a routine -/

section Routines

variable {run : Runner} (locked : V.Locked run)
include locked

/-- A nested call. -/
theorem nestedCall (h : V.Same m n) (start : Nat) (f : Value) (args : Array Value) :
    V.Lockstep Prod.snd V.Answers m (Machine.nestedCall run start f args m)
      (Machine.nestedCall run start f args n) := by
  have begun : V.Same
      { m with
        frames := .boundary :: m.heldFrames, held := m.held + 1
        control := .call f args start .onward true }
      { n with
        frames := .boundary :: n.heldFrames, held := n.held + 1
        control := .call f args start .onward true } := by
    refine h.map (f := fun m => { m with
        frames := .boundary :: m.heldFrames, held := m.held + 1
        control := .call f args start .onward true }) fun m => ?_
    simp only [Machine.heldFrames_veil]
    rfl
  refine .bind ((locked.stops begun).of_shown rfl) ?_ ?_ ?_
  · rintro ⟨stop, m'⟩
    cases stop <;> exact .pure (le_refl _)
  · rintro ⟨stop, n'⟩
    cases stop <;> exact .pure (le_refl _)
  · rintro ⟨stop, m'⟩ ⟨stop', n'⟩ ⟨stops, same⟩
    have ended : V.Same (m.unnested m') (n.unnested n') := by
      unfold Same
      rw [← unnested_veil, ← unnested_veil, h, same]
    rcases stop_cases stops with ⟨rfl, -⟩ | ⟨f, g, rfl, rfl, faults⟩
    · cases stop <;> exact .pure rfl ended.shown ⟨rfl, ended⟩
    · exact .pure rfl ended.shown ⟨congrArg Except.error faults, ended⟩

/-- The induction is on the bound for the variables. -/
theorem closeAll (h : V.Same m n) (floor k : Nat) (fault : Option Value) :
    V.Lockstep Prod.snd V.Replies m (Machine.closeAll run floor k fault m)
      (Machine.closeAll run floor k fault n) := by
  induction k generalizing fault m n with
  | zero => exact .pure rfl h.shown ⟨rfl, h⟩
  | succ k ih =>
    have slot (s : Nat) : n.slot s = m.slot s := h.eq (fun m => m.slot s) fun _ => rfl
    simp only [Machine.closeAll, h.closers, slot, h.heap]
    split
    · next s rest _ =>
      split
      · have popped : V.Same { m with closers := rest } { n with closers := rest } :=
          h.map (f := fun m => { m with closers := rest }) fun _ => rfl
        refine .bind_same ((locked.nestedCall popped _ _ _).of_shown rfl) ?_ ?_
        · rintro ⟨result, m'⟩
          cases result with
          | ok vs => exact climbs_closeAll locked.shows _ _ _ _
          | error e => exact (climbs_closeAll locked.shows _ _ _ _).of_le (m'.shown_le_disclosing _)
        · rintro ⟨result, m'⟩ ⟨result', n'⟩ ⟨answer, called⟩
          rcases answer_cases answer with ⟨vs, rfl, rfl⟩ | ⟨e, e', rfl, rfl, faults⟩
          · exact ih called _
          · dsimp only
            rw [isPlaced_of_fault faults]
            refine .showing called.shown (climbs_closeAll locked.shows _ _ _ _)
              (climbs_closeAll locked.shows _ _ _ _) fun quiet => ?_
            obtain rfl := fault_eq faults quiet
            exact ih (called.showing _) _
      · exact .pure rfl h.shown ⟨rfl, h⟩
    · exact .pure rfl h.shown ⟨rfl, h⟩

theorem attemptCall (h : V.Same m n) (start : Nat) (f : Value) (args : Array Value) :
    V.Lockstep Prod.snd V.Replies m (Machine.attemptCall run start f args m)
      (Machine.attemptCall run start f args n) := by
  have closing (v : Value) (m : Machine) :
      Climbs Prod.snd m (Machine.closeAll run start m.closers.length (some v) m >>= fun x =>
        pure ((.error (x.1.getD v) : Except Value (Array Value)), x.2)) :=
    .bind (climbs_closeAll locked.shows _ _ _ _) fun _ => .pure (le_refl _)
  have closed (m : Machine) : (m.closeCells start).shown = m.shown :=
    Machine.shown_of_seat (m.seat_closeCells start)
  refine .bind_same (locked.nestedCall h start f args) ?_ ?_
  · rintro ⟨result, m'⟩
    cases result with
    | ok vs => exact .pure (le_refl _)
    | error e =>
      refine (closing _ _).of_le ?_
      rw [closed]
      exact m'.shown_le_disclosing _
  · rintro ⟨result, m'⟩ ⟨result', n'⟩ ⟨answer, called⟩
    rcases answer_cases answer with ⟨vs, rfl, rfl⟩ | ⟨e, e', rfl, rfl, faults⟩
    · exact .pure rfl called.shown ⟨rfl, called⟩
    · dsimp only
      rw [isPlaced_of_fault faults]
      refine .showing called.shown ((closing _ _).of_le (le_of_eq (closed _).symm))
        ((closing _ _).of_le (le_of_eq (closed _).symm)) fun quiet => ?_
      obtain rfl := fault_eq faults quiet
      have cut := (called.showing e.isPlaced).closeCells start
      rw [cut.closers]
      refine .bind_same ((locked.closeAll cut _ _ _).of_shown (closed _))
        (fun _ => .pure (le_refl _)) ?_
      rintro ⟨left, m''⟩ ⟨left', n''⟩ ⟨same, ended⟩
      obtain rfl : left = left' := same
      exact .pure rfl ended.shown ⟨rfl, ended⟩

/-- A table is finalized on both sides alike. -/
theorem finalize (h : V.Same m n) (start i : Nat) :
    V.Lockstep id V.Same m (Machine.finalize run start i m) (Machine.finalize run start i n) := by
  have handler : n.handler = m.handler := h.eq Machine.handler fun _ => rfl
  have alone : V.Same { m with handler := none } { n with handler := none } :=
    h.map (f := fun m => { m with handler := none }) fun _ => rfl
  simp only [Machine.finalize, h.heap, handler]
  split
  · exact .pure rfl h.shown h
  · refine .bind_same ((locked.attemptCall alone _ _ _).of_shown rfl) (fun _ => .pure (le_refl _)) ?_
    rintro ⟨answer, m'⟩ ⟨answer', n'⟩ ⟨-, called⟩
    exact .pure rfl called.shown
      (called.map (f := fun k => { k with handler := m.handler }) fun _ => rfl)

/-- The induction is on the tables. -/
theorem finalizeAll (h : V.Same m n) (start : Nat) (ids : List Nat) :
    V.Lockstep id V.Same m (Machine.finalizeAll run start ids m)
      (Machine.finalizeAll run start ids n) := by
  induction ids generalizing m n with
  | nil => exact .pure rfl h.shown h
  | cons i ids ih =>
    refine .bind_same (locked.finalize h start i) (fun _ => climbs_finalizeAll locked.shows _ _ _) ?_
    exact fun m' n' ended => ih ended

/-- The same is out of reach on both sides. -/
theorem collect (h : V.Same m n) (slots : Nat) :
    V.Lockstep id V.Same m (Machine.collect run slots m) (Machine.collect run slots n) := by
  have swept : n.swept slots = m.swept slots :=
    h.eq (fun m => m.swept slots) fun m => m.swept_veil V slots
  simp only [Machine.collect, swept]
  generalize m.swept slots = out
  have begun : V.Same (m.withHeap { out.2 with finalizing := true })
      (n.withHeap { out.2 with finalizing := true }) :=
    h.map (f := fun k => k.withHeap { out.2 with finalizing := true }) fun _ => rfl
  refine .bind_same ((locked.finalizeAll begun slots out.1).of_shown rfl)
    (fun _ => .pure (le_refl _)) ?_
  intro m' n' ended
  refine .pure rfl ended.shown ?_
  exact ended.map (f := fun k => (k.withHeap { k.heap.toHeap with finalizing := false }).collected)
    fun k => Machine.collected_veil V (k.withHeap { k.heap.toHeap with finalizing := false })

/-- Another coroutine's turn; the record of turns is out of sight. -/
theorem resume (h : V.Same m n) (id : Nat) (args : Array Value) :
    V.Lockstep Prod.snd V.Answers m (Machine.resume run id args m)
      (Machine.resume run id args n) := by
  have entered := n.entered_veil V id args
  rw [← h, m.entered_veil V] at entered
  unfold Machine.resume
  cases begun : m.entered id args with
  | error f =>
    cases begun' : n.entered id args with
    | error g =>
      rw [begun, begun'] at entered
      exact .pure rfl h.shown ⟨congrArg V.answer (Except.error.inj entered ▸ rfl), h⟩
    | ok inner' =>
      rw [begun, begun'] at entered
      cases entered
  | ok inner =>
    cases begun' : n.entered id args with
    | error g =>
      rw [begun, begun'] at entered
      cases entered
    | ok inner' =>
      rw [begun, begun'] at entered
      have same : V.Same inner inner' :=
        show V.machine inner = V.machine inner' from
          congrArg (fun m : Machine => { m with turns := [] }) (Except.ok.inj entered)
      refine .bind ((locked.stops same).of_shown (Machine.shown_entered begun)) ?_ ?_ ?_
      · rintro ⟨stop, m'⟩
        exact .pure (le_of_eq (Machine.shown_handBack m m' stop).symm)
      · rintro ⟨stop, n'⟩
        exact .pure (le_of_eq (Machine.shown_handBack n n' stop).symm)
      · rintro ⟨stop, m'⟩ ⟨stop', n'⟩ ⟨stops, ended⟩
        have veiled := m.handBack_veil V stop m'
        rw [h, stops, ended, n.handBack_veil V] at veiled
        obtain ⟨answer, machines⟩ := Prod.mk.inj veiled
        refine .pure (Machine.shown_handBack m m' stop) ?_ ⟨answer.symm, machines.symm⟩
        rw [Machine.shown_handBack]
        exact ended.shown

theorem closeThread (h : V.Same m n) (id : Nat) :
    V.Lockstep Prod.snd V.Replies m (Machine.closeThread run id m)
      (Machine.closeThread run id n) := by
  have statuses := n.status_veil V id
  rw [← h, m.status_veil V] at statuses
  cases status : (m.threads[id]?).map Thread.status with
  | none =>
    have status' : (n.threads[id]?).map Thread.status = none := by
      rw [status] at statuses
      exact Option.map_eq_none_iff.1 statuses.symm
    simp only [Machine.closeThread, status, status']
    exact .pure rfl h.shown ⟨rfl, h⟩
  | some s =>
    obtain ⟨t, status', same⟩ : ∃ t, (n.threads[id]?).map Thread.status = some t ∧
        V.status t = V.status s := by
      rw [status] at statuses
      exact Option.map_eq_some_iff.1 statuses.symm
    obtain ⟨told, same⟩ := faults_eq (faults_of_status same.symm)
    rw [Machine.closeThread_some run status, Machine.closeThread_some run status']
    have cut (m : Machine) : ((m.closing id).closeCells 0).shown = m.shown :=
      (Machine.shown_of_seat (Machine.seat_closeCells _ 0)).trans (shown_closing m id)
    have climbs (m : Machine) (fault : Option Value) : Climbs Prod.snd m
        (Machine.closeAll run 0 ((m.closing id).closeCells 0).closers.length fault
          ((m.closing id).closeCells 0) >>= fun x => pure (x.1, m.closed x.2)) := by
      refine .of_le (.bind (climbs_closeAll locked.shows _ _ _ _) fun a => .pure ?_)
        (le_of_eq (cut m).symm)
      exact le_of_eq (shown_closed m a.2).symm
    dsimp only
    rw [told]
    refine .showing h.shown (climbs _ _) (climbs _ _) fun quiet => ?_
    rw [same quiet]
    have h := h.showing (t.fault?.any Fault.isPlaced)
    generalize m.showing (t.fault?.any Fault.isPlaced) = m at h ⊢
    generalize n.showing (t.fault?.any Fault.isPlaced) = n at h ⊢
    have begun : V.Same ((m.closing id).closeCells 0) ((n.closing id).closeCells 0) := by
      refine .closeCells ?_ 0
      exact h.map (f := fun m => m.closing id) fun m => closing_veil m id
    rw [begun.closers]
    refine .bind ((locked.closeAll begun _ _ _).of_shown (cut m)) ?_ ?_ ?_
    · exact fun a => .pure (le_of_eq (shown_closed m a.2).symm)
    · exact fun a => .pure (le_of_eq (shown_closed n a.2).symm)
    · rintro ⟨left, m'⟩ ⟨left', n'⟩ ⟨answer, inner⟩
      obtain rfl : left = left' := answer
      have outer : V.Same (m.closed m') (n.closed n') := by
        unfold Same
        rw [← closed_veil, ← closed_veil, h, inner]
      exact .pure (shown_closed m m') (outer.shown.trans (shown_closed m m')) ⟨rfl, outer⟩

/-- The induction is on the routine, which is the same on both sides as long as nothing
comes to light. -/
theorem perform (h : V.Same m n) (callee : Value) (start : Nat) (r : Routine) :
    V.Lockstep Prod.snd V.Ends m (Lua.perform run callee start r m)
      (Lua.perform run callee start r n) := by
  have climbs := climbs_perform locked.shows callee start
  induction r generalizing m n with
  | done e => exact .pure rfl h.shown ⟨rfl, h⟩
  | fail f =>
    have faults : V.fault (m.placed callee f) = V.fault (n.placed callee f) := by
      rw [← Machine.placed_veil, h, Machine.placed_veil]
    exact .pure rfl h.shown ⟨congrArg Outcome.raised faults, h⟩
  | heap f k ih =>
    rw [Lua.perform, Lua.perform, h.heap]
    exact (ih _ (h.map (f := fun m => m.withHeap _) fun _ => rfl)).of_shown rfl
  | call f args k ih =>
    rw [Lua.perform, Lua.perform]
    refine .bind_same (locked.nestedCall h _ f args) ?_ ?_
    · rintro ⟨result, m'⟩
      cases result with
      | ok vs => exact climbs _ m'
      | error e => exact .pure (le_refl _)
    · rintro ⟨result, m'⟩ ⟨result', n'⟩ ⟨answer, called⟩
      rcases answer_cases answer with ⟨vs, rfl, rfl⟩ | ⟨e, e', rfl, rfl, faults⟩
      · exact ih vs called
      · exact .pure rfl called.shown ⟨congrArg Outcome.passedOn faults, called⟩
  | attempt f args k ih =>
    rw [Lua.perform, Lua.perform]
    refine .bind_same (locked.attemptCall h _ f args) (fun _ => climbs _ _) ?_
    rintro ⟨result, m'⟩ ⟨result', n'⟩ ⟨answer, called⟩
    obtain rfl : result = result' := answer
    exact ih result called
  | host c args k ih =>
    have asked : n.invoke c args = m.invoke c args := h.eq (fun m => m.invoke c args) fun _ => rfl
    have lockstep : V.Lockstep (fun _ => m) Eq m (m.invoke c args) (m.invoke c args) := fun v =>
      ⟨Nat.le_refl _, Nat.le_refl _, fun _ => ⟨rfl, rfl⟩⟩
    rw [Lua.perform, Lua.perform, asked]
    refine .bind lockstep (fun _ => climbs _ m)
      (fun _ => (climbs _ n).of_le (le_of_eq h.shown.symm)) ?_
    rintro suspends _ rfl
    exact ih suspends h
  | process u k ih =>
    have done : V.Same (m.doing u) (n.doing u) := h.map (f := fun m => m.doing u) fun _ => rfl
    have lockstep : V.Lockstep (fun _ => m) Eq m (Conversing.tell (.process u))
        (Conversing.tell (.process u)) := fun v => ⟨Nat.le_refl _, Nat.le_refl _, fun _ => ⟨rfl, rfl⟩⟩
    rw [Lua.perform, Lua.perform]
    refine .bind lockstep (fun _ => (climbs _ (m.doing u)).of_le (le_refl _))
      (fun _ => (climbs _ (n.doing u)).of_le (le_of_eq h.shown.symm)) ?_
    rintro _ _ -
    exact (ih done).of_shown rfl
  | room k ih =>
    have depth : n.depth = m.depth := h.eq Machine.depth fun _ => rfl
    rw [Lua.perform, Lua.perform, depth]
    exact ih _ h
  | install c env k ih =>
    have globals : n.heap.globals = m.heap.globals := h.eq (fun m => m.heap.globals) fun _ => rfl
    rw [Lua.perform, Lua.perform, globals]
    generalize env.getD (.table m.heap.globals) = first
    obtain ⟨value, machines⟩ := m.install_alike V h (c := c) rfl first
    dsimp only
    rw [value]
    exact (ih _ machines).of_shown rfl
  | code f strip k ih =>
    obtain ⟨stripped, found, same⟩ := codes_eq (m.codeOf_alike V h f)
    rw [Lua.perform, Lua.perform, found]
    refine .showing h.shown (climbs _ _) (climbs _ _) fun quiet => ?_
    have code : (m.codeOf f).map (fun c => if strip then c.strip else c) =
        (n.codeOf f).map fun c => if strip then c.strip else c := by
      cases strip with
      | true => exact stripped
      | false => rw [same (by simpa using quiet)]
    rw [code]
    exact ih _ (h.showing _)
  | place level k ih =>
    have places : (m.placeAt level).map V.position = (n.placeAt level).map V.position := by
      rw [← Machine.placeAt_veil, h, Machine.placeAt_veil]
    obtain ⟨found, same⟩ := positions_eq places
    rw [Lua.perform, Lua.perform, found]
    refine .showing h.shown (climbs _ _) (climbs _ _) fun quiet => ?_
    rw [same quiet]
    exact ih _ (h.showing _)
  | create f k ih =>
    have made := m.newThread_veil V f
    rw [h, n.newThread_veil V f] at made
    obtain ⟨id, machines⟩ := Prod.mk.inj made
    rw [Lua.perform, Lua.perform]
    dsimp only
    rw [id]
    exact (ih _ machines.symm).of_shown rfl
  | resume id args k ih =>
    rw [Lua.perform, Lua.perform]
    refine .bind_same (locked.resume h id args) ?_ ?_
    · rintro ⟨result, m'⟩
      cases result with
      | ok vs => exact climbs _ m'
      | error e => exact (climbs _ _).of_le (m'.shown_le_disclosing _)
    · rintro ⟨result, m'⟩ ⟨result', n'⟩ ⟨answer, called⟩
      rcases answer_cases answer with ⟨vs, rfl, rfl⟩ | ⟨e, e', rfl, rfl, faults⟩
      · exact ih (.ok vs) called
      · dsimp only
        rw [isPlaced_of_fault faults]
        refine .showing called.shown (climbs _ _) (climbs _ _) fun quiet => ?_
        obtain rfl := fault_eq faults quiet
        exact ih _ (called.showing _)
  | liveness id k ih =>
    have same : n.liveness id = m.liveness id :=
      h.eq (fun m => m.liveness id) fun m => m.liveness_veil V id
    rw [Lua.perform, Lua.perform, same]
    exact ih _ h
  | broken id k ih =>
    have statuses := n.status_veil V id
    rw [← h, m.status_veil V] at statuses
    rw [Lua.perform, Lua.perform]
    generalize (m.threads[id]?).map Thread.status = s at statuses ⊢
    generalize (n.threads[id]?).map Thread.status = t at statuses ⊢
    obtain _ | s := s <;> obtain _ | t := t <;> simp only [Option.map_none, Option.map_some,
      reduceCtorEq, Option.some.injEq] at statuses
    · exact ih _ h
    · cases s <;> cases t <;> simp only [status, reduceCtorEq] at statuses <;> exact ih _ h
  | close id k ih =>
    rw [Lua.perform, Lua.perform]
    refine .bind_same (locked.closeThread h id) (fun _ => climbs _ _) ?_
    rintro ⟨left, m'⟩ ⟨left', n'⟩ ⟨answer, ended⟩
    obtain rfl : left = left' := answer
    exact ih left ended
  | running k ih =>
    have current : n.current = m.current := h.eq Machine.current fun _ => rfl
    rw [Lua.perform, Lua.perform, current]
    exact ih _ h
  | canSuspend id k ih =>
    have same : n.canSuspend id = m.canSuspend id := h.eq (fun m => m.canSuspend id) fun _ => rfl
    rw [Lua.perform, Lua.perform, same]
    exact ih _ h
  | memory k ih =>
    rw [Lua.perform, Lua.perform]
    refine .weighing h.shown (climbs _ _) (climbs _ _) fun heavy => ?_
    rw [h.inUse heavy]
    exact ih _ h.weighing
  | collect k ih =>
    rw [Lua.perform, Lua.perform]
    exact .bind_same (locked.collect h _) (fun _ => climbs _ _) fun _ _ ended => ih ended

/-! ### Steps and runs -/

/-- A built-in function, from its call to its end. -/
theorem performed (h : V.Same m n) (f : Value) (r : Routine) (start : Nat)
    (deliver : Deliver) (depth before : Nat) :
    V.Lockstep Step.machine V.Steps m
      (Lua.perform run f start r { m with depth, control := .run } >>= fun answer =>
        pure (answer.2.concluded answer.1 start deliver before))
      (Lua.perform run f start r { n with depth, control := .run } >>= fun answer =>
        pure (answer.2.concluded answer.1 start deliver before)) := by
  have shown (m : Machine) (o : Outcome) :
      (m.concluded o start deliver before).machine.shown = m.shown :=
    Machine.shown_of_changes (m.changes_concluded o start deliver before)
  have called : V.Same { m with depth, control := .run } { n with depth, control := .run } :=
    h.map (f := fun m => { m with depth, control := .run }) fun _ => rfl
  refine .bind_same ((locked.perform called f start r).of_shown rfl)
    (fun a => .pure (le_of_eq (shown a.2 a.1).symm)) ?_
  rintro ⟨o, m'⟩ ⟨o', n'⟩ ⟨outcome, ended⟩
  refine .pure (shown m' o) ((shown n' o').trans ended.shown) ?_
  dsimp only at outcome ended ⊢
  unfold Steps
  rw [← Machine.concluded_veil, ← Machine.concluded_veil, outcome, ended]

/-- A call begins. -/
theorem begin (h : V.Same m n) (f : Value) (args : Array Value) (start : Nat)
    (deliver : Deliver) (nested : Bool) :
    V.Lockstep Step.machine V.Steps m (Machine.begin run m f args start deliver nested)
      (Machine.begin run n f args start deliver nested) := by
  have depth : n.depth = m.depth := h.eq Machine.depth fun _ => rfl
  have next {f : Machine → Machine} (commutes : ∀ m, f (V.machine m) = V.machine (f m)) :
      V.Steps (.next (f m)) (.next (f n)) :=
    congrArg Step.next (h.map commutes)
  simp only [Machine.begin, depth, h.heap]
  split
  · exact .pure rfl h.shown
      (next (f := fun k => { k with depth := m.depth + 1 }.raiseText (Bytes.ofText "C stack overflow"))
        fun k => Machine.raiseText_veil V { k with depth := m.depth + 1 } _)
  · split
    · exact .pure rfl h.shown
        (next (f := fun k => { k with depth := m.depth + 1 }.raise .handling) fun _ => rfl)
    · generalize (if nested then m.depth + 1 else m.depth) = inner
      cases f with
      | closure id =>
        dsimp only
        split
        · exact .pure rfl h.shown
            (next (f := fun k => { k with depth := inner }.raiseText (Bytes.ofText "stack overflow"))
              fun k => Machine.raiseText_veil V { k with depth := inner } _)
        · exact .pure (shown_entering m id args start deliver m.depth inner)
            ((shown_entering n id args start deliver m.depth inner).trans h.shown)
            (congrArg Step.next (h.entering id args start deliver m.depth inner))
      | builtin b => exact locked.performed h _ _ _ _ _ _
      | bound id =>
        dsimp only
        cases m.heap.bounds[id]? with
        | none => exact .pure rfl h.shown (next (f := fun k => k.raise .exhausted) fun _ => rfl)
        | some b => exact locked.performed h _ _ _ _ _ _
      | _ =>
        dsimp only
        split
        · exact .pure rfl h.shown
            (next (f := fun k => k.raise (.call k.here (m.heap.typeName _) .elsewhere))
              fun k => by rw [Machine.here_veil]; rfl)
        · split
          · exact .pure rfl h.shown
              (next (f := fun k => k.raiseText (Bytes.ofText "stack overflow"))
                fun k => Machine.raiseText_veil V k _)
          · exact .pure rfl h.shown
              (next (f := fun k =>
                { k with depth := m.depth, control := .call _ _ start deliver nested }) fun _ => rfl)

omit locked in
theorem isFinal_of_fault {f g : Fault} (same : V.fault f = V.fault g) : g.isFinal = f.isFinal := by
  cases f <;> cases g <;> first | rfl | cases same

omit locked in
/-- A fault that the message handler has seen, or none will see, is about to be caught. -/
theorem steps_unwinding {f g : Fault} (h : V.Same m n) (faults : V.fault f = V.fault g) :
    V.Steps (.next { m with control := .unwind f }) (.next { n with control := .unwind g }) := by
  refine congrArg Step.next ?_
  show { V.machine m with control := .unwind (V.fault f) } =
    { V.machine n with control := .unwind (V.fault g) }
  rw [h, faults]

/-- A message handler sees a fault. -/
theorem handle (h : V.Same m n) {f g : Fault} (faults : V.fault f = V.fault g) :
    V.Lockstep Step.machine V.Steps m (Machine.handle run m f) (Machine.handle run n g) := by
  have handler : n.handler = m.handler := h.eq Machine.handler fun _ => rfl
  by_cases unseen : m.handler = none ∨ f.isFinal = true
  · rw [Machine.handle_unseen run unseen, Machine.handle_unseen run
      (by rwa [handler, isFinal_of_fault faults])]
    exact .pure rfl h.shown (steps_unwinding h faults)
  · rw [not_or] at unseen
    obtain ⟨some_, seen⟩ := unseen
    obtain ⟨called, found⟩ := Option.ne_none_iff_exists'.1 some_
    rw [Machine.handle_seen run found (by simpa using seen), Machine.handle_seen run
      (handler.trans found) (by rw [isFinal_of_fault faults]; simpa using seen),
      isPlaced_of_fault faults]
    have free : n.free = m.free := h.eq Machine.free fun m => m.free_veil V
    have after (x : Except Fault (Array Value) × Machine) : (x.2.handled x.1).shown = x.2.shown := by
      obtain ⟨result, m'⟩ := x
      cases result <;> rfl
    have climbs (v : Value) (start : Nat) (m : Machine) : Climbs Step.machine m
        (Machine.nestedCall run start called #[v] m >>= fun x =>
          pure (.next (x.2.handled x.1))) :=
      .bind (climbs_nestedCall locked.shows _ _ _ _) fun x => .pure (le_of_eq (after x).symm)
    refine .showing h.shown (climbs _ _ _) (climbs _ _ _) fun quiet => ?_
    obtain rfl := fault_eq faults quiet
    rw [free]
    refine .bind_same (locked.nestedCall (h.showing _) _ _ _)
      (fun x => .pure (le_of_eq (after x).symm)) ?_
    rintro ⟨result, m'⟩ ⟨result', n'⟩ ⟨answer, ended⟩
    refine .pure (after (result, m')) ((after (result', n')).trans ended.shown) ?_
    rcases answer_cases answer with ⟨vs, rfl, rfl⟩ | ⟨e, e', rfl, rfl, same⟩
    · exact steps_unwinding ended rfl
    · exact steps_unwinding ended same

omit locked in
/-- A fault looks for a protected call. -/
theorem unwind {f g : Fault} (h : V.Same m n) (faults : V.fault f = V.fault g) :
    V.Lockstep Step.machine V.Steps m (pure (m.unwind f)) (pure (n.unwind g)) := by
  have frames := n.protectionOf_machine V
  rw [← h, m.protectionOf_machine V] at frames
  by_cases uncaught : Machine.protectionOf m.frames = none ∨ f = .exhausted
  · have uncaught' : Machine.protectionOf n.frames = none ∨ g = .exhausted := by
      refine uncaught.imp (fun missing => ?_) (exhausted_of_fault faults)
      rw [missing] at frames
      exact Option.map_eq_none_iff.1 frames.symm
    rw [Machine.unwind_uncaught uncaught, Machine.unwind_uncaught uncaught']
    exact .pure rfl h.shown (congrArg₂ Step.stop (congrArg Stop.failed faults) h)
  · rw [not_or] at uncaught
    obtain ⟨⟨p, rest⟩, found⟩ := Option.ne_none_iff_exists'.1 uncaught.1
    obtain ⟨⟨p', rest'⟩, found'⟩ : ∃ x, Machine.protectionOf n.frames = some x := by
      rw [found] at frames
      obtain ⟨x, found', -⟩ := Option.map_eq_some_iff.1 frames.symm
      exact ⟨x, found'⟩
    have caught := Machine.unwind_caught found uncaught.2
    have caught' := Machine.unwind_caught found' fun final =>
      uncaught.2 (exhausted_of_fault faults.symm final)
    have shown (m : Machine) (p : Protection) (rest : List Frame) :
        (m.caught f p rest).shown = (m.showing f.isPlaced).shown :=
      Machine.shown_of_seat (Machine.seat_closeCells _ _)
    have shown' (m : Machine) (p : Protection) (rest : List Frame) :
        (m.caught g p rest).shown = (m.showing f.isPlaced).shown := by
      rw [← isPlaced_of_fault faults]
      exact Machine.shown_of_seat (Machine.seat_closeCells _ _)
    rw [caught, caught']
    refine .showing h.shown (.pure (le_of_eq (shown m p rest).symm))
      (.pure (le_of_eq (shown' n p' rest').symm)) fun quiet => ?_
    obtain rfl := fault_eq faults quiet
    have plain : V.fault f = f := fault_of_quiet quiet
    have same := Machine.unwind_veil (m := m) (f := f) (.inr plain)
    rw [h, Machine.unwind_veil (.inr plain), caught, caught'] at same
    exact .pure (shown m p rest) ((shown n p' rest').trans (h.showing f.isPlaced).shown) same.symm

/-- A step. -/
theorem step (h : V.Same m n) :
    V.Lockstep Step.machine V.Steps m (m.step run) (n.step run) := by
  have controls : V.control m.control = V.control n.control :=
    show (V.machine m).control = (V.machine n).control by rw [h]
  have stilled : V.Same { m with control := .run } { n with control := .run } :=
    h.map (f := fun m => { m with control := .run }) fun _ => rfl
  rcases control_cases controls with ⟨same, notRaise, notUnwind⟩ | ⟨f, g, left, right, faults⟩ |
    ⟨f, g, left, right, faults⟩
  · cases left : m.control with
    | run =>
      have right : n.control = .run := same.symm.trans left
      simp only [Machine.step, left, right]
      refine .pure (Machine.shown_of_changes m.changes_advance)
        ((Machine.shown_of_changes n.changes_advance).trans h.shown) ?_
      unfold Steps
      rw [← Machine.advance_veil, ← Machine.advance_veil, h]
    | give vs deliver =>
      have right : n.control = .give vs deliver := same.symm.trans left
      simp only [Machine.step, left, right]
      refine .pure (Machine.shown_of_changes (m.changes_give vs deliver))
        ((Machine.shown_of_changes (n.changes_give vs deliver)).trans h.shown) ?_
      unfold Steps
      rw [← Machine.give_veil, ← Machine.give_veil, h]
    | call f args start deliver nested =>
      have right : n.control = .call f args start deliver nested := same.symm.trans left
      simp only [Machine.step, left, right]
      exact (locked.begin stilled f args start deliver nested).of_shown rfl
    | raise f => exact absurd left (notRaise f)
    | unwind f => exact absurd left (notUnwind f)
  · simp only [Machine.step, left, right]
    exact (locked.handle stilled faults).of_shown rfl
  · simp only [Machine.step, left, right]
    exact unwind h faults

/-- The induction is on the bound for the steps. -/
theorem loop (h : V.Same m n) (k : Nat) :
    V.Lockstep Prod.snd V.Stops m (Machine.loop run k m) (Machine.loop run k n) := by
  induction k generalizing m n with
  | zero => exact .pure rfl h.shown ⟨rfl, h⟩
  | succ k ih =>
    refine .bind_same (locked.step h) ?_ ?_
    · intro s
      cases s with
      | next m' => exact climbs_loop locked.shows k m'
      | stop s m' => exact .pure (le_refl _)
    · intro s t same
      cases s with
      | next m' =>
        cases t with
        | next n' => exact ih (Step.next.inj same)
        | stop t n' => cases same
      | stop s m' =>
        cases t with
        | next n' => cases same
        | stop t n' =>
          obtain ⟨stop, machines⟩ := Step.stop.inj same
          exact .pure rfl (Same.shown machines) ⟨stop, machines⟩

end Routines

end Locked

/-- Runs are in lockstep, whatever the number of levels below them. -/
theorem locked_runWithin (V : Veil) (k : Nat) : V.Locked (Machine.runWithin k) := by
  induction k with
  | zero =>
    exact ⟨Machine.bracketed_shows.runWithin 0, fun h => .pure rfl h.shown ⟨rfl, h⟩⟩
  | succ k ih =>
    exact ⟨Machine.bracketed_shows.runWithin (k + 1), fun h => ih.loop h Machine.stepBudget⟩

/-! ### Calls from outside -/

namespace Same

variable (h : V.Same m n)
include h

theorem rested : V.Same m.rested n.rested :=
  h.map (f := Machine.rested) fun _ => rfl

theorem guarded : V.Same m.guarded n.guarded :=
  h.map (f := Machine.guarded) fun _ => rfl

/-- Everything that a failed call from outside left open is closed. -/
theorem abandonCall {f g : Fault} (faults : V.fault f = V.fault g) :
    V.Lockstep Prod.snd (fun x y => V.fault x.1 = V.fault y.1 ∧ V.Same x.2 y.2) m
      (m.abandonCall f) (n.abandonCall g) := by
  have locked := V.locked_runWithin Machine.levels
  have cut := h.guarded.closeCells 0
  have shown : (m.guarded.closeCells 0).shown = m.shown :=
    (Machine.shown_of_seat (m.guarded.seat_closeCells 0)).trans rfl
  simp only [Machine.abandonCall, cut.closers]
  refine Lockstep.of_shown ?_ shown
  generalize m.guarded.closeCells 0 = m at cut
  generalize n.guarded.closeCells 0 = n at cut
  split
  · exact .pure rfl cut.shown ⟨faults, cut.rested⟩
  · have climbs (v : Value) (k : Nat) (m : Machine) : Climbs Prod.snd m
        (Machine.closeAll Machine.run 0 k (some v) m >>= fun x =>
          pure (Fault.value (x.1.getD v), x.2.rested)) :=
      .bind (climbs_closeAll locked.shows _ _ _ _) fun _ => .pure (le_refl _)
    rw [isPlaced_of_fault faults]
    refine .showing cut.shown (climbs _ _ _) (climbs _ _ _) fun quiet => ?_
    obtain rfl := fault_eq faults quiet
    refine .bind_same (locked.closeAll (cut.showing _) _ _ _) (fun _ => .pure (le_refl _)) ?_
    rintro ⟨left, m'⟩ ⟨left', n'⟩ ⟨answer, ended⟩
    obtain rfl : left = left' := answer
    exact .pure rfl ended.shown ⟨rfl, ended.rested⟩

/-- A call from outside. -/
theorem callMain (f : Value) (args : Array Value) :
    V.Lockstep Prod.snd V.Answers m (m.callMain f args) (n.callMain f args) := by
  have locked := V.locked_runWithin Machine.levels
  have called := h.guarded.map (f := fun m => { m with control := .call f args 1 .onward false })
    fun _ => rfl
  refine .bind_same ((locked.stops called).of_shown rfl) ?_ ?_
  · rintro ⟨stop, m'⟩
    cases stop with
    | returned vs => exact .pure (le_refl _)
    | suspended vs deliver => exact .pure (le_refl _)
    | failed f => exact .bind (climbs_abandonCall f m') fun _ => .pure (le_refl _)
  · rintro ⟨stop, m'⟩ ⟨stop', n'⟩ ⟨stops, ended⟩
    rcases stop_cases stops with ⟨rfl, succeeds⟩ | ⟨f, g, rfl, rfl, faults⟩
    · cases stop with
      | returned vs => exact .pure rfl ended.shown ⟨rfl, ended.rested⟩
      | suspended vs deliver => exact .pure rfl ended.shown ⟨rfl, ended.rested⟩
      | failed f => exact absurd rfl (succeeds f)
    · refine .bind_same (abandonCall ended faults) (fun _ => .pure (le_refl _)) ?_
      rintro ⟨f', m''⟩ ⟨g', n''⟩ ⟨faults', left⟩
      exact .pure rfl left.shown ⟨congrArg Except.error faults', left⟩

omit h in
theorem failure_of_fault {f g : Fault} (faults : V.fault f = V.fault g) :
    Failure.ofFault f = Failure.ofFault g := by
  cases f <;> cases g <;> first | rfl | (cases faults; done) | (cases faults; rfl)

theorem callFrom (f : Value) (args : Array Value) :
    V.Lockstep Prod.snd V.Replies m (m.callFrom f args) (n.callFrom f args) := by
  refine .bind_same (callMain h f args) ?_ ?_
  · rintro ⟨result, m'⟩
    cases result <;> exact .pure (le_refl _)
  · rintro ⟨result, m'⟩ ⟨result', n'⟩ ⟨answer, ended⟩
    rcases answer_cases answer with ⟨vs, rfl, rfl⟩ | ⟨f, g, rfl, rfl, faults⟩
    · exact .pure rfl ended.shown ⟨rfl, ended⟩
    · exact .pure rfl ended.shown ⟨congrArg Except.error (failure_of_fault faults), ended⟩

/-- What is said of a fault may differ, but the machines do the same. -/
theorem failureOf {f g : Fault} (faults : V.fault f = V.fault g) :
    V.Lockstep Prod.snd (fun x y => V.Same x.2 y.2) m (Context.failureOf f m)
      (Context.failureOf g n) := by
  have told {f : Fault} (placed : f.isPlaced = true) (m : Machine) :
      ∃ failure, Context.failureOf f m = pure (failure, m) := by
    cases f <;> first | exact ⟨_, rfl⟩ | cases placed
  cases light : V.bare && f.isPlaced with
  | true =>
    have placed : f.isPlaced = true := (Bool.and_eq_true_iff.1 light).2
    obtain ⟨failure, left⟩ := told placed m
    obtain ⟨failure', right⟩ := told ((isPlaced_of_fault faults).trans placed) n
    rw [left, right]
    exact .pure rfl h.shown h
  | false =>
    obtain rfl := fault_eq faults light
    unfold Context.failureOf
    split
    · exact .pure rfl h.shown h
    · split
      · exact .pure rfl h.shown h
      · refine .bind_same (callFrom h _ _) ?_ ?_
        · rintro ⟨result, m'⟩
          cases result with
          | error e => exact .pure (le_refl _)
          | ok vs =>
            dsimp only
            split <;> exact .pure (le_refl _)
        · rintro ⟨result, m'⟩ ⟨result', n'⟩ ⟨answer, ended⟩
          obtain rfl : result = result' := answer
          cases result with
          | error e => exact .pure rfl ended.shown ended
          | ok vs =>
            dsimp only
            split <;> exact .pure rfl ended.shown ended

omit h in
theorem climbs_took (thread : Nat) (answer : Except Fault (Array Value) × Machine) :
    Climbs (fun x => x.2.2) answer.2 (Context.took thread answer) := by
  obtain ⟨result, m'⟩ := answer
  cases result with
  | ok vs => exact .pure (le_refl _)
  | error f => exact .bind (climbs_failureOf f m') fun _ => .pure (le_refl _)

omit h in
/-- A turn that left the coroutines in the same way comes to the same state. -/
theorem took {x y : Except Fault (Array Value) × Machine} (answers : V.Answers x y) (thread : Nat) :
    V.Lockstep (fun x => x.2.2) (fun x y => x.1 = y.1 ∧ V.Same x.2.2 y.2.2) x.2
      (Context.took thread x) (Context.took thread y) := by
  obtain ⟨answer, ended⟩ := answers
  obtain ⟨result, m'⟩ := x
  obtain ⟨result', n'⟩ := y
  rcases answer_cases answer with ⟨vs, rfl, rfl⟩ | ⟨f, g, rfl, rfl, faults⟩
  · have same : n'.liveness thread = m'.liveness thread :=
      ended.eq (fun m => m.liveness thread) fun m => m.liveness_veil V thread
    simp only [Context.took, same]
    exact .pure rfl ended.shown ⟨rfl, ended⟩
  · refine .bind_same (failureOf ended faults) (fun _ => .pure (le_refl _)) ?_
    rintro ⟨failure, m''⟩ ⟨failure', n''⟩ left
    exact .pure rfl left.shown ⟨rfl, left⟩

/-- A script's turn comes to the same state. -/
theorem turn (thread : Nat) :
    V.Lockstep (fun x => x.2.2) (fun x y => x.1 = y.1 ∧ V.Same x.2.2 y.2.2) m
      (Context.turn thread m) (Context.turn thread n) := by
  have locked := V.locked_runWithin Machine.levels
  have begun := h.rested.map (f := fun m => { m with depth := 0 }) fun _ => rfl
  rw [Context.turn_eq, Context.turn_eq]
  exact .bind_same ((locked.resume begun thread #[]).of_shown rfl) (climbs_took thread)
    fun _ _ answers => took answers thread

end Same

end Lua.Veil

end NpcDialog
