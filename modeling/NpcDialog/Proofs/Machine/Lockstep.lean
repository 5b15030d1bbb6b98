import NpcDialog.Proofs.Machine.Climbs
import NpcDialog.Proofs.Machine.VeilSteps

/-!
# Lockstep

Two machines that are the same behind a veil do the same as long as nothing comes to light
of what the veil leaves out of sight.  The record of turns never comes to light; what notes
on code tell does whenever the program is shown something of it, and bytes in use whenever
it is told their number.  Both are counted, and the counts only grow: so two runs are the
same up to the veil if the counts in the end are those from the beginning.

* `Veil.uncovered`, `Veil.revealed` — how much has come to light.
* `Veil.Same` — two machines that are the same behind a veil.
* `Veil.Lockstep` — the same is done as long as nothing comes to light.
-/

namespace NpcDialog

open Lua

/-- How much of what was shown a veil leaves out of sight. -/
def Lua.Veil.uncovered (V : Veil) (d : Disclosures) : Nat :=
  (if V.bare then d.notes else 0) + if V.light then d.memory else 0

/-- How much has come to light of what a veil leaves out of sight. -/
def Lua.Veil.revealed (V : Veil) (m : Machine) : Nat := V.uncovered m.shown

theorem Lua.Veil.revealed_disclosing (V : Veil) (m : Machine) (d : Disclosures) :
    V.revealed (m.disclosing d) = V.revealed m + V.uncovered d := by
  simp only [Veil.revealed, Veil.uncovered, Machine.disclosing]
  split <;> split <;> omega

/-- What takes nothing back reveals no less than before. -/
theorem Climbs.revealed_le {α : Type} {machine : α → Machine} {m : Machine} {x : Conversing α}
    (h : Climbs machine m x) (V : Veil) (v : Conversation) :
    V.revealed m ≤ V.revealed (machine (x v).1) := by
  obtain ⟨notes, memory⟩ := h v
  unfold Veil.revealed Veil.uncovered
  split <;> split <;> omega

/-! ## Lockstep -/

namespace Lua.Veil

variable (V : Veil)

/-- Two machines that are the same behind a veil. -/
def Same (m n : Machine) : Prop := V.machine m = V.machine n

/-- Two things that are done with machines take nothing back; and if nothing comes to
light on one side, then both tell the same, and their answers are related. -/
def Lockstep {α : Type} (machine : α → Machine) (R : α → α → Prop) (m : Machine)
    (x y : Conversing α) : Prop :=
  ∀ v, V.revealed m ≤ V.revealed (machine (x v).1) ∧
    V.revealed m ≤ V.revealed (machine (y v).1) ∧
    (V.revealed (machine (x v).1) = V.revealed m ∨ V.revealed (machine (y v).1) = V.revealed m →
      (x v).2 = (y v).2 ∧ R (x v).1 (y v).1)

variable {V} {m m' n n' : Machine}

namespace Same

/-- What a veil leaves in sight is the same. -/
theorem eq (h : V.Same m n) {α : Type} (g : Machine → α) (blind : ∀ m, g (V.machine m) = g m) :
    g n = g m := by
  rw [← blind n, ← blind m, h]

theorem shown (h : V.Same m n) : n.shown = m.shown := h.eq Machine.shown fun _ => rfl

theorem heap (h : V.Same m n) : n.heap.toHeap = m.heap.toHeap :=
  h.eq (fun m => m.heap.toHeap) fun _ => rfl

theorem closers (h : V.Same m n) : n.closers = m.closers := h.eq Machine.closers fun _ => rfl

/-- What does the same on both sides of the veil is done to both machines. -/
theorem map (h : V.Same m n) {f : Machine → Machine}
    (commutes : ∀ m, f (V.machine m) = V.machine (f m)) : V.Same (f m) (f n) := by
  unfold Same
  rw [← commutes m, ← commutes n, h]

theorem disclosing (h : V.Same m n) (d : Disclosures) : V.Same (m.disclosing d) (n.disclosing d) :=
  h.map (f := fun m => m.disclosing d) fun m => m.disclosing_veil V d

theorem showing (h : V.Same m n) (told : Bool) : V.Same (m.showing told) (n.showing told) :=
  h.disclosing _

theorem weighing (h : V.Same m n) : V.Same m.weighing n.weighing := h.disclosing _

/-- The bytes in use are the same unless some are out of sight. -/
theorem inUse (h : V.Same m n) (heavy : V.light = false) : n.inUse = m.inUse := by
  refine h.eq Machine.inUse fun m => ?_
  simp only [Machine.inUse, Veil.machine, heavy]
  rfl

/-- Whatever becomes of the drift is the same unless it is out of sight. -/
theorem drift (h : V.Same m n) {a b : Int} (alike : V.light = false → a = b) :
    V.Same { m with drift := a } { n with drift := b } := by
  have drifted (m : Machine) (a : Int) : V.machine { m with drift := a } =
      { V.machine m with drift := if V.light then 0 else a } := rfl
  have same : (if V.light then 0 else a) = if V.light then 0 else b := by
    cases light : V.light with
    | true => rfl
    | false => rw [alike light]
  unfold Same
  rw [drifted m a, drifted n b, h, same]

theorem closeCells (h : V.Same m n) (floor : Nat) :
    V.Same (m.closeCells floor) (n.closeCells floor) :=
  h.map (f := fun m => m.closeCells floor) fun m => m.closeCells_veil V floor

end Same

theorem revealed_of_shown (same : m.shown = n.shown) : V.revealed m = V.revealed n := by
  unfold revealed
  rw [same]

namespace Lockstep

variable {α β : Type} {machine : α → Machine} {machine' : β → Machine} {R S : α → α → Prop}
  {R' : β → β → Prop} {x y : Conversing α}

theorem pure {a b : α} (left : (machine a).shown = m.shown) (right : (machine b).shown = m.shown)
    (h : R a b) : V.Lockstep machine R m (Pure.pure a) (Pure.pure b) := by
  intro v
  exact ⟨Nat.le_of_eq (revealed_of_shown left).symm, Nat.le_of_eq (revealed_of_shown right).symm,
    fun _ => ⟨rfl, h⟩⟩

theorem imp (h : V.Lockstep machine R m x y) (himp : ∀ a b, R a b → S a b) :
    V.Lockstep machine S m x y := fun v =>
  ⟨(h v).1, (h v).2.1, fun quiet => ⟨((h v).2.2 quiet).1, himp _ _ ((h v).2.2 quiet).2⟩⟩

theorem of_shown (h : V.Lockstep machine R m' x y) (same : m'.shown = m.shown) :
    V.Lockstep machine R m x y := by
  intro v
  rw [← revealed_of_shown same]
  exact h v

/-- If something comes to light at once then there is nothing else to be proved. -/
theorem disclosing {d : Disclosures} (shown : n.shown = m.shown)
    (hx : Climbs machine (m.disclosing d) x) (hy : Climbs machine (n.disclosing d) y)
    (quiet : V.uncovered d = 0 → V.Lockstep machine R (m.disclosing d) x y) :
    V.Lockstep machine R m x y := by
  intro v
  have same : V.revealed n = V.revealed m := revealed_of_shown shown
  by_cases still : V.uncovered d = 0
  · have kept : V.revealed (m.disclosing d) = V.revealed m := by
      rw [V.revealed_disclosing, still, Nat.add_zero]
    rw [← kept]
    exact quiet still v
  · have hx := hx.revealed_le V v
    have hy := hy.revealed_le V v
    rw [V.revealed_disclosing] at hx hy
    refine ⟨by omega, by omega, fun quiet => ?_⟩
    omega

/-- So it is with what notes tell. -/
theorem showing {told : Bool} (shown : n.shown = m.shown) (hx : Climbs machine (m.showing told) x)
    (hy : Climbs machine (n.showing told) y)
    (quiet : (V.bare && told) = false → V.Lockstep machine R (m.showing told) x y) :
    V.Lockstep machine R m x y := by
  refine .disclosing shown hx hy fun still => quiet ?_
  cases bare : V.bare with
  | false => rfl
  | true => simpa [uncovered, bare] using still

/-- And with the bytes in use. -/
theorem weighing (shown : n.shown = m.shown) (hx : Climbs machine m.weighing x)
    (hy : Climbs machine n.weighing y)
    (quiet : V.light = false → V.Lockstep machine R m.weighing x y) :
    V.Lockstep machine R m x y := by
  exact .disclosing shown hx hy fun still => quiet (by simpa [uncovered] using still)

theorem bind {f g : α → Conversing β} (hx : V.Lockstep machine R m x y)
    (climbs : ∀ a, Climbs machine' (machine a) (f a))
    (climbs' : ∀ a, Climbs machine' (machine a) (g a))
    (hf : ∀ a b, R a b → V.Lockstep machine' R' (machine a) (f a) (g b)) :
    V.Lockstep machine' R' m (x >>= f) (y >>= g) := by
  intro v
  obtain ⟨left, right, same⟩ := hx v
  have first := (climbs (x v).1).revealed_le V (x v).2
  have second := (climbs' (y v).1).revealed_le V (y v).2
  simp only [Conversing.bind_apply]
  refine ⟨Nat.le_trans left first, Nat.le_trans right second, fun quiet => ?_⟩
  have still : V.revealed (machine (x v).1) = V.revealed m ∨
      V.revealed (machine (y v).1) = V.revealed m := by
    omega
  obtain ⟨conversation, related⟩ := same still
  obtain ⟨left', right', same'⟩ := hf _ _ related (x v).2
  rw [← conversation] at second quiet ⊢
  refine same' ?_
  omega

/-- Both sides go on in the same way. -/
theorem bind_same {f : α → Conversing β} (hx : V.Lockstep machine R m x y)
    (climbs : ∀ a, Climbs machine' (machine a) (f a))
    (hf : ∀ a b, R a b → V.Lockstep machine' R' (machine a) (f a) (f b)) :
    V.Lockstep machine' R' m (x >>= f) (y >>= f) :=
  hx.bind climbs climbs hf

end Lockstep

end Lua.Veil

/-! ## Machines in the middle of a step -/

/-- The machine after a nested call, which left it as `m'`. -/
def Lua.Machine.unnested (m m' : Machine) : Machine :=
  { m' with
    frames := m.heldFrames, pc := m.pc, top := m.top, depth := m.depth, held := m.held
    handler := m.handler, control := .run }

/-- The machine that is to close the variables of a coroutine. -/
def Lua.Machine.closing (m : Machine) (id : Nat) : Machine :=
  { (m.park .active).unpark id with frames := [], depth := m.depth + 1, held := 1, handler := none }

/-- The machine after the variables of a coroutine were closed, which left it as `m'`. -/
def Lua.Machine.closed (m m' : Machine) : Machine :=
  { ({ m' with stack := #[], top := 1 }.park .finished).unpark m.current with
    depth := m.depth, held := m.held, control := .run }

theorem Lua.Machine.closeThread_some (run : Runner) {id : Nat} {m : Machine} {s : ThreadStatus}
    (status : (m.threads[id]?).map Thread.status = some s) :
    m.closeThread run id =
      let m := m.showing (s.fault?.any Fault.isPlaced)
      let inner := (m.closing id).closeCells 0
      inner.closeAll run 0 inner.closers.length (s.fault?.map Fault.toValue) >>= fun x =>
        pure (x.1, m.closed x.2) := by
  unfold closeThread
  rw [status]
  rfl

/-- The machine in which a function of the program begins, given its arguments. -/
def Lua.Machine.entering (m : Machine) (id : Nat) (args : Array Value) (start : Nat)
    (deliver : Deliver) (before depth : Nat) : Machine :=
  let m := (({ m with depth }.withSlots (start + args.size + 1)).setSlot start (.closure id)).putFrom
    (start + 1) args
  m.enter id start args.size deliver m.heldFrames before

/-- Is the fault one that no message handler sees? -/
def Lua.Fault.isFinal : Fault → Bool
  | .memory | .handling | .exhausted => true
  | _ => false

/-- The machine after a message handler has answered. -/
def Lua.Machine.handled (m : Machine) : Except Fault (Array Value) → Machine
  | .ok vs => { m with control := .unwind (.value (vs.getD 0 .nil)) }
  | .error f => { m with control := .unwind f }

theorem Lua.Machine.handle_unseen (run : Runner) {m : Machine} {f : Fault}
    (unseen : m.handler = none ∨ f.isFinal = true) :
    m.handle run f = pure (.next { m with control := .unwind f }) := by
  unfold handle
  split
  case h_5 =>
    next handler _ _ _ found =>
    rcases unseen with missing | final
    · rw [missing] at found
      cases found
    · simp_all [Fault.isFinal]
  all_goals rfl

theorem Lua.Machine.handle_seen (run : Runner) {m : Machine} {f : Fault} {handler : Value}
    (found : m.handler = some handler) (seen : f.isFinal = false) :
    m.handle run f = nestedCall run (m.free + 1) handler #[f.toValue] (m.showing f.isPlaced) >>=
      fun x => pure (.next (x.2.handled x.1)) := by
  unfold handle
  split
  case h_4 =>
    next missing =>
    rw [missing] at found
    cases found
  case h_5 =>
    next other _ _ _ there =>
    obtain rfl : other = handler := Option.some.inj (there.symm.trans found)
    refine congrArg (nestedCall run _ other _ _ >>= ·) (funext fun x => ?_)
    obtain ⟨result, m'⟩ := x
    cases result <;> rfl
  all_goals cases seen

/-- The machine in which a protected call has caught a fault. -/
def Lua.Machine.caught (m : Machine) (f : Fault) (p : Protection) (rest : List Frame) : Machine :=
  { (m.showing f.isPlaced).closeCells p.floor with
    frames := .protect { p with caught := some f.toValue } :: rest
    top := p.floor
    control := .give #[] .onward }

theorem Lua.Machine.unwind_uncaught {m : Machine} {f : Fault}
    (uncaught : protectionOf m.frames = none ∨ f = .exhausted) :
    m.unwind f = .stop (.failed f) m := by
  rcases uncaught with missing | rfl
  · unfold unwind
    rw [missing]
    cases f <;> rfl
  · rfl

theorem Lua.Machine.unwind_caught {m : Machine} {f : Fault} {p : Protection} {rest : List Frame}
    (found : protectionOf m.frames = some (p, rest)) (bounded : f ≠ .exhausted) :
    m.unwind f = .next (m.caught f p rest) := by
  unfold unwind
  rw [found]
  cases f <;> first | rfl | contradiction

namespace Lua.Veil

variable {V : Veil} {m n : Machine}

/-! ## What is the same on both sides -/

theorem isPlaced_of_fault {f g : Fault} (same : V.fault f = V.fault g) : g.isPlaced = f.isPlaced := by
  rw [← isPlaced_fault V f, same, isPlaced_fault]

/-- A fault that tells nothing that is out of sight is the same on both sides. -/
theorem fault_of_quiet {f : Fault} (quiet : (V.bare && f.isPlaced) = false) : V.fault f = f := by
  cases bare : V.bare with
  | false => exact fault_of_noted V bare f
  | true => exact fault_of_unplaced V (by rwa [bare, Bool.true_and] at quiet)

/-- Two faults that are the same behind a veil are the same, unless they tell what is out
of sight. -/
theorem fault_eq {f g : Fault} (same : V.fault f = V.fault g)
    (quiet : (V.bare && f.isPlaced) = false) : f = g := by
  have quiet' : (V.bare && g.isPlaced) = false := by rwa [isPlaced_of_fault same]
  rwa [fault_of_quiet quiet, fault_of_quiet quiet'] at same

theorem exhausted_of_fault {f g : Fault} (same : V.fault f = V.fault g) (h : f = .exhausted) :
    g = .exhausted := by
  subst h
  cases g <;> first | rfl | cases same

theorem faults_eq {f g : Option Fault} (same : f.map V.fault = g.map V.fault) :
    g.any Fault.isPlaced = f.any Fault.isPlaced ∧
      ((V.bare && f.any Fault.isPlaced) = false → f = g) := by
  cases f <;> cases g <;> simp only [Option.map_none, Option.map_some, reduceCtorEq,
    Option.some.injEq] at same
  · exact ⟨rfl, fun _ => rfl⟩
  · exact ⟨isPlaced_of_fault same, fun quiet => congrArg some (fault_eq same quiet)⟩

theorem faults_of_status {s t : ThreadStatus} (same : V.status s = V.status t) :
    s.fault?.map V.fault = t.fault?.map V.fault := by
  cases s <;> cases t <;> simp_all [status, ThreadStatus.fault?]

theorem answer_cases {α : Type} {x y : Except Fault α} (same : V.answer x = V.answer y) :
    (∃ a, x = .ok a ∧ y = .ok a) ∨ ∃ f g, x = .error f ∧ y = .error g ∧ V.fault f = V.fault g := by
  cases x <;> cases y <;> simp_all [answer]

theorem stop_cases {s t : Stop} (same : V.stop s = V.stop t) :
    s = t ∧ (∀ f, s ≠ .failed f) ∨
      ∃ f g, s = .failed f ∧ t = .failed g ∧ V.fault f = V.fault g := by
  cases s <;> cases t <;> simp_all [stop]

/-- What is to be done next is the same on both sides but for a fault. -/
theorem control_cases {c d : Control} (same : V.control c = V.control d) :
    (c = d ∧ (∀ f, c ≠ .raise f) ∧ ∀ f, c ≠ .unwind f) ∨
      (∃ f g, c = .raise f ∧ d = .raise g ∧ V.fault f = V.fault g) ∨
      ∃ f g, c = .unwind f ∧ d = .unwind g ∧ V.fault f = V.fault g := by
  cases c <;> cases d <;> simp_all [control]

theorem codes_eq {f g : Option FunctionCode} (same : f.map V.code = g.map V.code) :
    f.map FunctionCode.strip = g.map FunctionCode.strip ∧ g.isSome = f.isSome ∧
      ((V.bare && f.isSome) = false → f = g) := by
  have strips (f : FunctionCode) : (V.code f).strip = f.strip := by
    unfold code
    split
    · exact f.strip_strip
    · rfl
  refine ⟨?_, ?_, fun quiet => ?_⟩
  · have stripped := congrArg (Option.map FunctionCode.strip) same
    simpa only [Option.map_map, Function.comp_def, strips] using stripped
  · simpa using congrArg Option.isSome same.symm
  · cases bare : V.bare with
    | false =>
      have same' : V.code = id := by
        funext f
        simp [code, bare]
      simpa [same'] using same
    | true =>
      have missing : f = none := by simpa [bare] using quiet
      subst missing
      exact (Option.map_eq_none_iff.1 same.symm).symm

theorem positions_eq {p q : Option Position} (same : p.map V.position = q.map V.position) :
    q.isSome = p.isSome ∧ ((V.bare && p.isSome) = false → p = q) := by
  refine ⟨by simpa using congrArg Option.isSome same.symm, fun quiet => ?_⟩
  cases bare : V.bare with
  | false =>
    have same' : V.position = id := by
      funext p
      simp [position, code, bare]
    simpa [same'] using same
  | true =>
    have missing : p = none := by simpa [bare] using quiet
    subst missing
    exact (Option.map_eq_none_iff.1 same.symm).symm

theorem unnested_veil (m m' : Machine) :
    (V.machine m).unnested (V.machine m') = V.machine (m.unnested m') := by
  simp only [Machine.unnested, Machine.heldFrames_veil]
  rfl

theorem closing_veil (m : Machine) (id : Nat) :
    (V.machine m).closing id = V.machine (m.closing id) := by
  simp only [Machine.closing, Machine.park_active_veil, Machine.unpark_veil]
  rfl

theorem closed_veil (m m' : Machine) :
    (V.machine m).closed (V.machine m') = V.machine (m.closed m') := by
  have emptied : { V.machine m' with stack := #[], top := 1 } =
      V.machine { m' with stack := #[], top := 1 } := rfl
  have parked := ({ m' with stack := #[], top := 1 } : Machine).park_veil V .finished
  simp only [Machine.closed, emptied]
  rw [show V.status .finished = .finished from rfl] at parked
  rw [parked, Machine.unpark_veil]
  rfl

theorem shown_entering (m : Machine) (id : Nat) (args : Array Value) (start : Nat)
    (deliver : Deliver) (before depth : Nat) :
    (m.entering id args start deliver before depth).shown = m.shown := by
  refine (Machine.shown_of_changes (Machine.changes_enter _ id start args.size deliver before
    fun a mem => Machine.knows_heldFrames _ mem)).trans ?_
  exact Machine.shown_of_seat (Machine.seat_of_core (by simp [Machine.core_depth]))

theorem shown_closing (m : Machine) (id : Nat) : (m.closing id).shown = m.shown :=
  (m.park .active).shown_unpark id

theorem shown_closed (m m' : Machine) : (m.closed m').shown = m'.shown :=
  Machine.shown_unpark _ _

/-! ## Outcomes -/

/-- Two calls that can fail have the same answer. -/
structure Answers (V : Veil) {α : Type} (x y : Except Fault α × Machine) : Prop where
  answer : V.answer x.1 = V.answer y.1
  machines : V.Same x.2 y.2

/-- Two calls have the same answer. -/
structure Replies (V : Veil) {α : Type} (x y : α × Machine) : Prop where
  answer : x.1 = y.1
  machines : V.Same x.2 y.2

/-- Two runs end in the same way. -/
structure Stops (V : Veil) (x y : Stop × Machine) : Prop where
  stop : V.stop x.1 = V.stop y.1
  machines : V.Same x.2 y.2

/-- Two routines end in the same way. -/
structure Ends (V : Veil) (x y : Outcome × Machine) : Prop where
  outcome : V.outcome x.1 = V.outcome y.1
  machines : V.Same x.2 y.2

/-- Two steps lead to the same. -/
def Steps (V : Veil) (s t : Step) : Prop := V.step s = V.step t

/-- A way of running machines that keeps them in lockstep. -/
structure Locked (V : Veil) (run : Runner) : Prop where
  shows : Runner.Keeps Machine.Shows run
  stops : ∀ {m n : Machine}, V.Same m n → V.Lockstep Prod.snd V.Stops m (run m) (run n)

/-- A function of the program begins in both machines. -/
theorem Same.entering (h : V.Same m n) (id : Nat) (args : Array Value) (start : Nat)
    (deliver : Deliver) (before depth : Nat) :
    V.Same (m.entering id args start deliver before depth)
      (n.entering id args start deliver before depth) := by
  refine h.map (f := fun k => k.entering id args start deliver before depth) fun k => ?_
  have moved : { V.machine k with depth } = V.machine { k with depth } := rfl
  simp only [Machine.entering, moved, Machine.withSlots_veil, Machine.setSlot_veil,
    Machine.putFrom_veil, Machine.heldFrames_veil, Machine.enter_veil]

end Lua.Veil

end NpcDialog
