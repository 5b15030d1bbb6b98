import NpcDialog.Proofs.Machine.Functions
import NpcDialog.Proofs.Machine.Veil

/-!
# Steps behind a veil

A step that makes no runs does the same on both sides of a veil, and so does all that is
done around a run: coroutines are put aside and take turns, functions are made of code.
A fault that becomes a value is an exception, since its text may tell what is out of
sight.

* `Veil.outcome` — how a routine ends, behind a veil.
* `Machine.advance_veil`, `Machine.give_veil`, `Machine.unwind_veil` — steps without runs.
* `Machine.entered_veil`, `Machine.handBack_veil` — another coroutine's turn.
-/

namespace NpcDialog.Lua

namespace Veil

variable (V : Veil)

/-- How a routine ends. -/
def outcome : Outcome → Outcome
  | .ended e => .ended e
  | .raised f => .raised (V.fault f)
  | .passedOn f => .passedOn (V.fault f)

/-- What comes of something that can fail. -/
def answer {α : Type} : Except Fault α → Except Fault α
  | .ok a => .ok a
  | .error f => .error (V.fault f)

end Veil

namespace Machine

variable (V : Veil) (m : Machine)

/-! ## Steps without runs -/

/-- What a built-in function ends with is taken up alike. -/
theorem concluded_veil (o : Outcome) (start : Nat) (deliver : Deliver) (depth : Nat) :
    (V.machine m).concluded (V.outcome o) start deliver depth =
      V.step (m.concluded o start deliver depth) := by
  cases o with
  | ended e =>
    cases e with
    | results vs => rfl
    | call f args after =>
      simp only [Veil.outcome, concluded, heldFrames_veil]
      rfl
    | protect f args handler =>
      simp only [Veil.outcome, concluded, heldFrames_veil]
      rfl
    | suspend vs =>
      have held : (V.machine m).held = m.held := rfl
      simp only [Veil.outcome, concluded, held]
      split <;> rfl
  | raised f => rfl
  | passedOn f => rfl

/-- A protected call ends alike. -/
theorem leaveProtected_veil (p : Protection) (rest : List Frame) (vs : Array Value) :
    (V.machine m).leaveProtected p (rest.map V.frame) vs = V.machine (m.leaveProtected p rest vs) := by
  simp only [leaveProtected, withFrames_veil]
  rfl

/-- Results go on to the same frame. -/
theorem giveOnward_veil (vs : Array Value) :
    (V.machine m).giveOnward vs = V.step (m.giveOnward vs) := by
  have frames : (V.machine m).frames = m.frames.map V.frame := rfl
  have closers : (V.machine m).closers = m.closers := rfl
  unfold giveOnward
  rw [frames, closers]
  cases m.frames with
  | nil => rfl
  | cons f rest =>
    cases f with
    | lua a => rfl
    | boundary => rfl
    | protect p =>
      simp only [List.map_cons, Veil.frame, leaveProtected_veil]
      split
      · rfl
      · split
        · split <;> rfl
        · rfl
    | pass after depth deliver =>
      simp only [List.map_cons, Veil.frame, withFrames_veil]
      rfl

/-- Results find their places alike. -/
theorem give_veil (vs : Array Value) (deliver : Deliver) :
    (V.machine m).give vs deliver = V.step (m.give vs deliver) := by
  have stilled : { V.machine m with control := .run } = V.machine { m with control := .run } := rfl
  unfold give
  simp only [stilled]
  generalize { m with control := .run } = m
  cases deliver with
  | slots start wanted =>
    simp only [withSlots_veil, putFrom_veil, clearFrom_veil]
    cases wanted <;> rfl
  | condition expected =>
    simp only [decideOn_veil]
    rfl
  | discard => rfl
  | joined start count target =>
    simp only [setSlot_veil, concatenate_veil]
    rfl
  | again top => rfl
  | onward => exact giveOnward_veil V m vs

/-- The innermost protected call is found by the frames alone, and a veil keeps their
kinds. -/
theorem protectionOf_veil (frames : List Frame) :
    protectionOf (frames.map V.frame) = (protectionOf frames).map fun x => (x.1, x.2.map V.frame) := by
  induction frames with
  | nil => rfl
  | cons f rest ih =>
    cases f with
    | lua a => exact ih
    | protect p => rfl
    | pass after depth deliver => exact ih
    | boundary => rfl

theorem protectionOf_machine :
    protectionOf (V.machine m).frames =
      (protectionOf m.frames).map fun x => (x.1, x.2.map V.frame) :=
  protectionOf_veil V m.frames

variable {V} {m} in
/-- A fault looks for a protected call, unless it becomes a value that tells what is out
of sight. -/
theorem unwind_veil {f : Fault}
    (quiet : protectionOf m.frames = none ∨ V.fault f = f) :
    (V.machine m).unwind (V.fault f) = V.step (m.unwind f) := by
  unfold unwind
  rw [protectionOf_machine]
  cases found : protectionOf m.frames with
  | none => cases f <;> rfl
  | some x =>
    obtain ⟨p, rest⟩ := x
    have same : V.fault f = f := quiet.resolve_left (by simp [found])
    rw [same]
    have closed : ((V.machine m).showing f.isPlaced).closeCells p.floor =
        V.machine ((m.showing f.isPlaced).closeCells p.floor) :=
      closeCells_veil V (m.showing f.isPlaced) p.floor
    cases f with
    | exhausted => exact congrArg (fun f => Step.stop (.failed f) (V.machine m)) same.symm
    | _ =>
      simp only [Option.map_some, closed]
      rfl

/-- A step of a function of the program is the same on both sides. -/
theorem advance_veil : (V.machine m).advance = V.step m.advance := by
  have frames : (V.machine m).frames = m.frames.map V.frame := rfl
  have limit : (V.machine m).heap.limit = m.heap.limit := rfl
  have used : (V.machine m).heap.used = m.heap.used := rfl
  have pc : (V.machine m).pc = m.pc := rfl
  unfold advance
  rw [limit, used, frames, pc]
  split
  · rw [checked_veil]
    rfl
  · cases active : m.frames with
    | nil => rfl
    | cons f rest =>
      cases f with
      | lua a =>
        have code : (V.activation a).body.code = a.body.code := Veil.code_code V a.body
        simp only [List.map_cons, Veil.frame, code]
        cases found : a.body.code[m.pc]? with
        | none => rfl
        | some i =>
          have executed := execute_veil V { m with pc := m.pc + 1 } a i
          simp only [active] at executed
          exact congrArg Step.next executed
      | _ => rfl

/-! ## Faults of built-in functions -/

/-- A fault of a built-in function is placed alike. -/
theorem placed_veil (callee : Value) (f : LibFault) :
    (V.machine m).placed callee f = V.fault (m.placed callee f) := by
  cases f with
  | message level text => exact congrArg (Fault.located · text) (placeAt_veil V m level)
  | argument number extra =>
    exact congrArg (Fault.argument · (m.heap.globalName callee) number extra) (here_veil V m)
  | _ => rfl

/-! ## Coroutines -/

/-- A coroutine that stops running is kept alike. -/
theorem park_veil (s : ThreadStatus) :
    (V.machine m).park (V.status s) = V.machine (m.park s) := by
  unfold park
  rw [heldFrames_veil]
  simp only [Veil.machine, Array.map_setIfInBounds]
  rfl

@[simp] theorem park_active_veil : (V.machine m).park .active = V.machine (m.park .active) :=
  park_veil V m .active

/-- A coroutine that goes on is taken up alike. -/
@[simp] theorem unpark_veil (id : Nat) : (V.machine m).unpark id = V.machine (m.unpark id) := by
  have found : (V.machine m).threads.getD id (.empty .active) =
      V.thread (m.threads.getD id (.empty .active)) := by
    simp only [Veil.machine, Array.getD_eq_getD_getElem?, Array.getElem?_map]
    cases m.threads[id]? <;> rfl
  have threads : (V.machine m).threads.setIfInBounds id (.empty .active) =
      (m.threads.setIfInBounds id (.empty .active)).map V.thread := by
    rw [Array.map_setIfInBounds]
    rfl
  unfold unpark
  rw [found, threads]
  generalize m.threads.getD id (.empty .active) = t
  exact withFrames_veil V { m with
    threads := m.threads.setIfInBounds id (.empty .active)
    current := id, stack := t.stack, top := t.top, cells := t.cells, closers := t.closers
    handler := t.handler } t.frames

theorem status_veil (id : Nat) :
    ((V.machine m).threads[id]?).map Thread.status =
      ((m.threads[id]?).map Thread.status).map V.status := by
  simp only [Veil.machine, Array.getElem?_map]
  cases m.threads[id]? <;> rfl

/-- A coroutine looks the same from outside. -/
@[simp] theorem liveness_veil (id : Nat) : (V.machine m).liveness id = m.liveness id := by
  have current : (V.machine m).current = m.current := rfl
  unfold liveness
  rw [status_veil, current]
  generalize (m.threads[id]?).map Thread.status = s
  cases s with
  | none => rfl
  | some s => cases s <;> rfl

@[simp] theorem canSuspend_veil (id : Nat) : (V.machine m).canSuspend id = m.canSuspend id := rfl

/-- A coroutine's turn begins; the record of turns is out of sight. -/
theorem entered_veil (id : Nat) (args : Array Value) :
    (V.machine m).entered id args =
      (m.entered id args).map fun inner => { V.machine inner with turns := [id] } := by
  have current : (V.machine m).current = m.current := rfl
  have depth : (V.machine m).depth = m.depth := rfl
  have turns : (V.machine m).turns = [] := rfl
  simp only [entered, status_veil, current, depth, turns, park_active_veil, unpark_veil]
  split
  · rfl
  · generalize (m.threads[id]?).map Thread.status = s
    cases s with
    | none => rfl
    | some s =>
      cases s with
      | fresh f =>
        simp only [Option.map_some, Veil.status]
        split <;> rfl
      | suspended deliver =>
        simp only [Option.map_some, Veil.status]
        split <;> rfl
      | _ => rfl

/-- A coroutine's turn ends alike. -/
theorem handBack_veil (stop : Stop) (inner : Machine) :
    (V.machine m).handBack (V.stop stop) (V.machine inner) =
      (V.answer (m.handBack stop inner).1, V.machine (m.handBack stop inner).2) := by
  have current : (V.machine m).current = m.current := rfl
  have parked (s : ThreadStatus) : ((V.machine inner).park (V.status s)).unpark m.current =
      V.machine ((inner.park s).unpark m.current) := by
    rw [park_veil, unpark_veil]
  cases stop with
  | returned vs =>
    have := parked .finished
    simp only [Veil.status] at this
    simp only [handBack, Veil.stop, current, this]
    rfl
  | suspended vs deliver =>
    have := parked (.suspended deliver)
    simp only [Veil.status] at this
    simp only [handBack, Veil.stop, current, this]
    rfl
  | failed f =>
    have := parked (.failed f)
    simp only [Veil.status] at this
    simp only [handBack, Veil.stop, current, this]
    rfl

theorem newThread_veil (f : Value) :
    (V.machine m).newThread f = ((m.newThread f).1, V.machine (m.newThread f).2) := by
  have threads : (V.machine m).threads.push (.empty (.fresh f)) =
      (m.threads.push (.empty (.fresh f))).map V.thread := by
    rw [Array.map_push]
    rfl
  unfold newThread
  rw [threads]
  simp only [Veil.machine, Array.size_map]
  rfl

/-! ## Code -/

/-- Notes take no memory that counts for the limit. -/
theorem codeCost_strip (f : FunctionCode) : codeCost f.strip = codeCost f := by
  refine FunctionCode.rec (motive_1 := fun f => codeCost f.strip = codeCost f)
    (motive_2 := fun fs => codeCostAll (FunctionCode.stripAll fs) = codeCostAll fs) ?mk ?nil ?cons f
  case nil => rfl
  case cons =>
    intro f rest ihf ihrest
    rw [FunctionCode.stripAll, codeCostAll, codeCostAll, ihf, ihrest]
  case mk =>
    intro params isVararg registers code consts captures notes children ih
    rw [FunctionCode.strip, codeCost, codeCost, ih]
    rfl

@[simp] theorem codeCost_veil (f : FunctionCode) : codeCost (V.code f) = codeCost f := by
  unfold Veil.code
  split
  · exact codeCost_strip f
  · rfl

/-- A function is made of code, with bytes for its notes unless they are out of sight. -/
theorem install_veil (c : Chunk) (first : Value) :
    ((m.install c first).1, V.machine (m.install c first).2) =
      (((V.machine m).install (V.code c) first).1,
        { ((V.machine m).install (V.code c) first).2 with
          noteBytes := if V.light then 0 else m.noteBytes + notesCost c }) := by
  unfold install
  simp only [Store.makeFunction_eq, codeCost_veil, Veil.code_captures, Store.charge, Veil.machine,
    Veil.store, Array.size_map, Array.map_push]
  rfl

/-- In two machines that look the same behind a veil the same is made of code that looks
the same there.  If bytes of notes are in sight then so are the notes. -/
theorem install_alike {n : Machine} (same : V.machine m = V.machine n) {c d : Chunk}
    (codes : V.code c = V.code d) (first : Value) :
    (m.install c first).1 = (n.install d first).1 ∧
      V.machine (m.install c first).2 = V.machine (n.install d first).2 := by
  refine Prod.mk.inj ?_
  rw [install_veil, install_veil, same, codes]
  have bytes : (if V.light then 0 else m.noteBytes + notesCost c) =
      if V.light then 0 else n.noteBytes + notesCost d := by
    cases light : V.light with
    | true => rfl
    | false =>
      have bare : V.bare = false := by
        cases bare : V.bare with
        | false => rfl
        | true => exact absurd (Veil.light_of_bare bare) (by simp [light])
      have notes : c = d := by simpa [Veil.code, bare] using codes
      have taken : m.noteBytes = n.noteBytes := by
        simpa [Veil.machine, light] using congrArg Machine.noteBytes same
      rw [notes, taken]
  rw [bytes]

/-- Two machines that look the same behind a veil have the same code there. -/
theorem codeOf_alike {n : Machine} (same : V.machine m = V.machine n) (f : Value) :
    (m.codeOf f).map V.code = (n.codeOf f).map V.code := by
  rw [← codeOf_veil, same, codeOf_veil]

end Machine

end NpcDialog.Lua
