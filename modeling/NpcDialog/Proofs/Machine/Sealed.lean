import NpcDialog.Proofs.Machine.Functions
import NpcDialog.Proofs.Machine.Keeps

/-!
# Captured variables out of reach

A captured variable that has a value of its own is changed only by a function that
captured it, or by one that such a function makes.  If all functions that captured it
only read what they capture, and make none, then it has this value for good,
whatever the program does: code that is loaded later can capture it no more.

* `FunctionCode.onlyReads` — code that sets no captured variable and makes no function.
* `Machine.Sealed` — a captured variable that has its value for good.
* `Machine.Inherits` — a later machine with the same functions and the same sealed
  variables.
* `Machine.bracketed_preserves` — so it is after every run.
-/

namespace NpcDialog

open Lua

namespace Lua

/-- Does the instruction set a captured variable? -/
def Instr.setsCaptured : Instr → Bool
  | .setCaptured _ _ => true
  | _ => false

/-- Does the code neither set a variable that it captures nor make functions? -/
def FunctionCode.onlyReads (f : FunctionCode) : Bool :=
  f.children.isEmpty && f.code.all fun i => !i.setsCaptured

theorem FunctionCode.onlyReads_setCaptured {f : FunctionCode} (reads : f.onlyReads = true) (r u : Nat) :
    .setCaptured r u ∉ f.code := by
  simp only [onlyReads, Bool.and_eq_true, Array.all_eq_true_iff_forall_mem] at reads
  intro mem
  have never := reads.2 _ mem
  simp [Instr.setsCaptured] at never

theorem FunctionCode.onlyReads_children {f : FunctionCode} (reads : f.onlyReads = true) :
    f.children = [] := by
  simp only [onlyReads, Bool.and_eq_true, List.isEmpty_iff] at reads
  exact reads.1

namespace Machine

/-! ## Sealed variables -/

/-- No call that waits can change a captured variable, be it by itself or by a
function that it makes. -/
def Uncaptured (id : Nat) (cells : List (Nat × Nat)) (frames : List Frame) : Prop :=
  id ∉ cells.map Prod.snd ∧ ∀ a, .lua a ∈ frames → id ∈ a.cells → a.body.onlyReads = true

/-- A captured variable that has a value of its own, and only functions, calls that
wait among them, that read it.  An index of a captured variable that a function does
not have stands for the variable number zero, which so is in everybody's reach. -/
structure Sealed (m : Machine) (id : Nat) (v : Value) : Prop where
  apart : id ≠ 0
  value : m.heap.cells[id]? = some (.closed v)
  functions : ∀ c ∈ m.heap.closures, id ∈ c.cells → c.code.onlyReads = true
  running : Uncaptured id m.cells m.frames
  waiting : ∀ t ∈ m.threads, Uncaptured id t.cells t.frames

variable {m m' m'' : Machine} {id : Nat} {v : Value}

theorem uncaptured_nil (id : Nat) : Uncaptured id [] [] := ⟨nofun, nofun⟩

namespace Sealed

theorem lt (h : m.Sealed id v) : id < m.heap.cells.size :=
  (Array.getElem?_eq_some_iff.1 h.value).1

/-- A function that has a sealed variable under some index has captured it. -/
theorem mem_of_getD (h : m.Sealed id v) {cells : Array Nat} {u : Nat}
    (same : cells.getD u 0 = id) : id ∈ cells := by
  by_cases there : u < cells.size
  · rw [Array.getD_eq_getD_getElem?, Array.getElem?_eq_getElem there] at same
    exact same ▸ Array.getElem_mem there
  · refine absurd same.symm ?_
    simpa [Array.getD, there] using h.apart

theorem of_core (h : m.Sealed id v) (same : m'.core = m.core) : m'.Sealed id v := by
  have cells : m'.heap.cells = m.heap.cells := congrArg (·.heap.cells) same
  have closures : m'.heap.closures = m.heap.closures := congrArg (·.heap.closures) same
  refine ⟨h.apart, cells ▸ h.value, closures ▸ h.functions, ?_, ?_⟩
  · rw [cells_of_core same, frames_of_core same]
    exact h.running
  · rw [threads_of_core same]
    exact h.waiting

/-- The calls that wait can be replaced by others that are known. -/
theorem of_calls (h : m.Sealed id v) {frames : List Frame}
    (known : ∀ a, .lua a ∈ frames → m.Knows a) : { m with frames }.Sealed id v := by
  refine { h with running := ⟨h.running.1, fun a mem captured => ?_⟩ }
  rcases known a mem with ⟨b, there, body, cells⟩ | there
  · exact body ▸ h.running.2 b there (cells ▸ captured)
  · exact h.functions _ there captured

theorem capture (h : m.Sealed id v) (slot : Nat) : (m.capture slot).2.Sealed id v := by
  unfold Machine.capture
  split
  · exact h
  · refine { h with value := ?_, running := ⟨fun mem => ?_, h.running.2⟩ }
    · show (m.heap.cells.push _)[id]? = _
      rw [Array.getElem?_push_lt h.lt, ← Array.getElem?_eq_getElem h.lt]
      exact h.value
    · rcases mem_of_insertCell mem with rfl | mem
      · exact Nat.lt_irrefl _ h.lt
      · exact h.running.1 mem

/-- The induction is on the variables that live on the stack. -/
theorem detachFrom (stack : Array Value) (floor : Nat) {open_ : List (Nat × Nat)}
    (cells : Array Cell) (out : id ∉ open_.map Prod.snd) :
    (Machine.detachFrom stack floor open_ cells).2[id]? = cells[id]? ∧
      id ∉ (Machine.detachFrom stack floor open_ cells).1.map Prod.snd := by
  induction open_ generalizing cells with
  | nil => exact ⟨rfl, nofun⟩
  | cons p rest ih =>
    rw [List.map_cons, List.mem_cons, not_or] at out
    unfold Machine.detachFrom
    split
    · obtain ⟨same, left⟩ := ih (cells.setIfInBounds p.2 (.closed (stack.getD p.1 .nil))) out.2
      exact ⟨same.trans (Array.getElem?_setIfInBounds_ne (Ne.symm out.1)), left⟩
    · exact ⟨rfl, by simpa using out⟩

theorem closeCells (h : m.Sealed id v) (floor : Nat) : (m.closeCells floor).Sealed id v := by
  unfold Machine.closeCells
  split
  · exact h
  · split
    · exact h
    · obtain ⟨same, left⟩ := detachFrom m.stack floor m.heap.cells h.running.1
      exact { h with value := same.trans h.value, running := ⟨left, h.running.2⟩ }

theorem writeCell (h : m.Sealed id v) {other : Nat} (ne : other ≠ id) (w : Value) :
    (m.writeCell other w).Sealed id v := by
  unfold Machine.writeCell
  split
  · exact { h with value := (Array.getElem?_setIfInBounds_ne ne).trans h.value }
  · split
    · exact h.of_core rfl
    · refine { h with waiting := fun t mem => ?_ }
      obtain ⟨i, there, rfl⟩ := Array.getElem_of_mem mem
      rw [Array.size_modify] at there
      have before := h.waiting m.threads[i] (Array.getElem_mem there)
      simp only [Array.getElem_modify]
      split <;> exact before
  · exact h

theorem make (h : m.Sealed id v) {c : Closure} (reads : id ∈ c.cells → c.code.onlyReads = true) :
    { m with heap := (m.heap.newClosure c).2 }.Sealed id v := by
  refine { h with functions := fun c' mem captured => ?_ }
  rcases Array.mem_push.1 mem with mem | rfl
  · exact h.functions c' mem captured
  · exact reads captured

theorem install (h : m.Sealed id v) (c : Chunk) (first : Value) :
    (m.install c first).2.Sealed id v := by
  unfold Machine.install
  rw [Store.makeFunction_eq]
  refine { h with value := ?_, functions := fun c' mem captured => ?_ }
  · show (m.heap.cells ++ _)[id]? = _
    rw [Array.getElem?_append_left h.lt]
    exact h.value
  · rcases Array.mem_push.1 mem with mem | rfl
    · exact h.functions c' mem captured
    · obtain ⟨i, -, same⟩ := Array.mem_map.1 captured
      have lt := h.lt
      omega

/-- A change leaves a sealed variable as it is. -/
theorem of_change (h : m.Sealed id v) (change : Change m m') : m'.Sealed id v := by
  cases change with
  | calls frames known same => exact (h.of_calls known).of_core same
  | capture slot => exact h.capture slot
  | closeCells floor => exact h.closeCells floor
  | write active code w =>
    refine h.writeCell (fun same => ?_) w
    have reads := h.running.2 _ active (h.mem_of_getD same)
    exact FunctionCode.onlyReads_setCaptured reads _ _ code
  | make active inner known =>
    refine h.make fun captured => ?_
    rcases known id captured with mem | ⟨u, same⟩
    · exact absurd mem h.running.1
    · have reads := h.running.2 _ active (h.mem_of_getD same.symm)
      rw [FunctionCode.onlyReads_children reads] at inner
      cases inner
  | install c first => exact h.install c first

/-! ## Coroutines -/

theorem park (h : m.Sealed id v) (s : ThreadStatus) : (m.park s).Sealed id v := by
  refine { h with running := uncaptured_nil id, waiting := fun t mem => ?_ }
  rcases Array.mem_or_eq_of_mem_setIfInBounds mem with mem | rfl
  · exact h.waiting t mem
  · refine ⟨h.running.1, fun a mem captured => ?_⟩
    exact (h.of_calls fun _ => knows_heldFrames m).running.2 a mem captured

theorem unpark (h : m.Sealed id v) (other : Nat) : (m.unpark other).Sealed id v := by
  have found : Uncaptured id (m.threads.getD other (.empty .active)).cells
      (m.threads.getD other (.empty .active)).frames := by
    by_cases there : other < m.threads.size
    · simpa [Array.getD, there] using h.waiting _ (Array.getElem_mem there)
    · simp [Array.getD, there, Thread.empty, uncaptured_nil]
  have waiting : ∀ t ∈ m.threads.setIfInBounds other (.empty .active),
      Uncaptured id t.cells t.frames := by
    intro t mem
    rcases Array.mem_or_eq_of_mem_setIfInBounds mem with mem | rfl
    · exact h.waiting t mem
    · exact uncaptured_nil id
  unfold Machine.unpark
  refine Sealed.of_core ?_ (core_withFrames _ _)
  exact { h with running := found, waiting }

theorem newThread (h : m.Sealed id v) (f : Value) : (m.newThread f).2.Sealed id v := by
  refine { h with waiting := fun t mem => ?_ }
  rcases Array.mem_push.1 mem with mem | rfl
  · exact h.waiting t mem
  · exact uncaptured_nil id

theorem disclosing (h : m.Sealed id v) (d : Disclosures) : (m.disclosing d).Sealed id v :=
  { h with }

/-- A turn of another coroutine begins. -/
theorem entered (h : m.Sealed id v) {inner : Machine} {other : Nat} {args : Array Value}
    (begun : m.entered other args = .ok inner) : inner.Sealed id v := by
  obtain ⟨-, -, control, rfl⟩ := entered_eq begun
  exact { (h.park .active).unpark other with }

theorem handBack {inner : Machine} (h : inner.Sealed id v) (m : Machine) (stop : Stop) :
    (m.handBack stop inner).2.Sealed id v := by
  cases stop <;> exact { (h.park _).unpark m.current with }

end Sealed

/-! ## Functions -/

/-- A change makes functions and leaves alone those that there are. -/
theorem Change.functions (change : Change m m') {id : Nat} {c : Closure}
    (found : m.heap.closures[id]? = some c) : m'.heap.closures[id]? = some c := by
  have pushed (c' : Closure) : (m.heap.closures.push c')[id]? = some c := by
    have there := (Array.getElem?_eq_some_iff.1 found).1
    rwa [Array.getElem?_push_lt there, ← Array.getElem?_eq_getElem there]
  cases change with
  | calls frames known same =>
    have closures : m'.heap.closures = m.heap.closures := congrArg (·.heap.closures) same
    rwa [closures]
  | capture slot =>
    unfold Machine.capture
    split <;> exact found
  | closeCells floor =>
    unfold Machine.closeCells
    split
    · exact found
    · split <;> exact found
  | write active code w =>
    unfold Machine.writeCell
    split
    · exact found
    · split <;> exact found
    · exact found
  | make active inner known => exact pushed _
  | install c first =>
    unfold Machine.install
    rw [Store.makeFunction_eq]
    exact pushed _

theorem closures_park (m : Machine) (s : ThreadStatus) :
    (m.park s).heap.closures = m.heap.closures := rfl

theorem closures_unpark (m : Machine) (id : Nat) :
    (m.unpark id).heap.closures = m.heap.closures :=
  congrArg (·.heap.closures) (core_withFrames _ _)

theorem closures_handBack (m inner : Machine) (stop : Stop) :
    (m.handBack stop inner).2.heap.closures = inner.heap.closures := by
  cases stop <;> exact closures_unpark _ _

/-! ## Later machines -/

/-- A later machine, maybe one in the middle of a step, with the same functions and the
same sealed variables. -/
structure Inherits (m m' : Machine) : Prop where
  functions : ∀ (id : Nat) (c : Closure),
    m.heap.closures[id]? = some c → m'.heap.closures[id]? = some c
  sealed : ∀ id v, m.Sealed id v → m'.Sealed id v

namespace Inherits

theorem refl (m : Machine) : Inherits m m := ⟨fun _ _ found => found, fun _ _ h => h⟩

theorem trans (h : Inherits m m') (h' : Inherits m' m'') : Inherits m m'' where
  functions id c found := h'.functions id c (h.functions id c found)
  sealed id v closed := h'.sealed id v (h.sealed id v closed)

theorem of_change (change : Change m m') : Inherits m m' :=
  ⟨fun _ _ => change.functions, fun _ _ h => h.of_change change⟩

theorem of_core (same : m'.core = m.core) : Inherits m m' := of_change (.light same)

theorem disclosing (m : Machine) (d : Disclosures) : Inherits m (m.disclosing d) :=
  ⟨fun _ _ found => found, fun _ _ h => h.disclosing d⟩

theorem showing (m : Machine) (told : Bool) : Inherits m (m.showing told) := disclosing m _

/-- All calls that wait are known, also those below one whose results are needed. -/
theorem knows_nested {a : Activation} (mem : .lua a ∈ Frame.boundary :: m.heldFrames) :
    m.Knows a := by
  rcases mem with _ | ⟨_, mem⟩
  exact knows_heldFrames m mem

/-- A call whose results are needed begins. -/
theorem nested (m : Machine) (held : Nat) :
    Inherits m { m with held, frames := .boundary :: m.heldFrames } :=
  ⟨fun _ _ found => found, fun _ _ sealed => { sealed.of_calls fun _ => knows_nested with }⟩

/-- Another coroutine is put in the place of the running one. -/
theorem switched (m : Machine) (s : ThreadStatus) (id held : Nat) :
    Inherits m { (m.park s).unpark id with held } := by
  refine ⟨fun other c found => ?_, fun _ _ sealed => { (sealed.park s).unpark id with }⟩
  show (Machine.unpark _ _).heap.closures[other]? = _
  rwa [closures_unpark, closures_park]

/-- Another coroutine has a turn. -/
theorem entered {inner : Machine} {id : Nat} {args : Array Value}
    (begun : m.entered id args = .ok inner) : Inherits m inner := by
  refine ⟨fun other c found => ?_, fun _ _ sealed => sealed.entered begun⟩
  obtain ⟨-, -, control, rfl⟩ := entered_eq begun
  show (Machine.unpark _ _).heap.closures[other]? = _
  rwa [closures_unpark, closures_park]

theorem handBack (m inner : Machine) (stop : Stop) : Inherits inner (m.handBack stop inner).2 :=
  ⟨fun _ _ found => by rwa [closures_handBack], fun _ _ sealed => sealed.handBack m stop⟩

end Inherits

/-- A later machine on which the same coroutine runs, with the same functions and the
same sealed variables. -/
structure Preserves (m m' : Machine) : Prop extends Keeps m m', Inherits m m'

/-- The brackets leave the functions and the sealed variables as they are. -/
theorem bracketed_preserves : Bracketed Preserves where
  of_change change := ⟨.of_seat change.seat, .of_change change⟩
  disclosing m d := ⟨bracketed_keeps.disclosing m d, .disclosing m d⟩
  trans h h' := ⟨h.toKeeps.trans h'.toKeeps, h.toInherits.trans h'.toInherits⟩
  held h := h.held
  nested {m m' held} h := by
    refine ⟨bracketed_keeps.nested h.toKeeps, h.functions, fun id v sealed => ?_⟩
    have ended := h.sealed id v ((Inherits.nested m held).sealed id v sealed)
    have outside := sealed.of_calls fun _ => knows_heldFrames m
    exact { ended with running := ⟨ended.running.1, outside.running.2⟩ }
  newThread m f :=
    ⟨bracketed_keeps.newThread m f, fun _ _ found => found, fun _ _ h => h.newThread f⟩
  turn {m inner inner' other args} stop entered h :=
    ⟨bracketed_keeps.turn stop entered h.toKeeps,
      (Inherits.entered entered).trans (h.toInherits.trans (.handBack m inner' stop))⟩
  close {m m' other} h :=
    ⟨bracketed_keeps.close h.toKeeps,
      (Inherits.switched m .active other 1).trans
        (h.toInherits.trans (.switched m' .finished m.current m.held))⟩

end Machine

end Lua

end NpcDialog
