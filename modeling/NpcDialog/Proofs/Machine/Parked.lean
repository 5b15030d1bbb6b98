import NpcDialog.Proofs.Machine.Turns
import NpcDialog.Proofs.Machine.Coroutines

/-!
# Coroutines that are put aside

A coroutine that waits for another one is put aside with all that it has.  Until it
runs again nothing of that changes but its stack, where a function may set a variable
that it has captured, unless the coroutine is closed.  So a coroutine that is suspended
in a turn from outside, and is given the next turn at once, goes on as if nothing had
happened.

* `Thread.Stays` — what becomes of a coroutine that waits for another one.
* `Machine.Minds` — a later machine of which this is true, after every run.
* `Machine.goingOn` — what would suspend a coroutine gives back at once.
* `Machine.Minds.entered_again` — so it is for a coroutine that is given the next turn.
-/

namespace NpcDialog

open Lua

namespace Lua

/-! ## Coroutines that wait for another one -/

/-- What becomes of a coroutine while others run: if it waits for another one, then it is
closed or only its stack changes; if it is over, it stays so. -/
structure Thread.Stays (t t' : Thread) : Prop where
  waits : t.status = .active → t'.status = .finished ∨ ∃ stack, t' = { t with stack }
  finished : t.status = .finished → t'.status = .finished

namespace Thread.Stays

variable {t t' t'' : Thread}

theorem of_stack (t : Thread) (stack : Array Value) : Stays t { t with stack } :=
  ⟨fun _ => .inr ⟨stack, rfl⟩, id⟩

theorem of_closed (closed : t'.status = .finished) : Stays t t' :=
  ⟨fun _ => .inl closed, fun _ => closed⟩

/-- Of a coroutine that is suspended nothing is said. -/
theorem of_isOpen (suspended : t.status.isOpen = true) : Stays t t' := by
  constructor <;> intro same <;> rw [same] at suspended <;> cases suspended

theorem trans (h : Stays t t') (h' : Stays t' t'') : Stays t t'' where
  waits status := by
    rcases h.waits status with closed | ⟨stack, rfl⟩
    · exact .inl (h'.finished closed)
    · rcases h'.waits status with closed | ⟨stack', rfl⟩
      · exact .inl closed
      · exact .inr ⟨stack', rfl⟩
  finished status := h'.finished (h.finished status)

end Thread.Stays

/-- What a coroutine is up to after a turn. -/
def Stop.status : Stop → ThreadStatus
  | .returned _ => .finished
  | .suspended _ deliver => .suspended deliver
  | .failed f => .failed f

namespace Machine

/-- A later machine on which the same coroutine runs.  What is put aside about that one is
as empty as before, and the others are as they are left while it runs. -/
structure Minds (m m' : Machine) : Prop extends Keeps m m' where
  own : m.threads[m.current]? = some (.empty .active) →
    m'.threads[m.current]? = some (.empty .active)
  others : ∀ id t, id ≠ m.current → m.threads[id]? = some t →
    ∃ t', m'.threads[id]? = some t' ∧ t.Stays t'

namespace Minds

variable {m m' m'' : Machine}

theorem of_threads (keeps : Keeps m m') (same : m'.threads = m.threads) : Minds m m' := by
  refine ⟨keeps, fun own => same ▸ own, fun id t _ there => ?_⟩
  exact ⟨t, same ▸ there, .of_stack t t.stack⟩

theorem trans (h : Minds m m') (h' : Minds m' m'') : Minds m m'' := by
  refine ⟨h.toKeeps.trans h'.toKeeps, fun own => ?_, fun id t other there => ?_⟩
  · rw [← h.current]
    exact h'.own (h.current ▸ h.own own)
  · obtain ⟨t', there', stays⟩ := h.others id t other there
    obtain ⟨t'', there'', stays'⟩ := h'.others id t' (h.current ▸ other) there'
    exact ⟨t'', there'', stays.trans stays'⟩

end Minds

variable {m m' : Machine}

/-- A function sets a variable that lives on the stack of another coroutine. -/
theorem minds_modify (m : Machine) {id : Nat} (other : id ≠ m.current)
    (f : Array Value → Array Value) :
    Minds m { m with threads := m.threads.modify id fun t => { t with stack := f t.stack } } := by
  refine ⟨⟨rfl, rfl, by simp⟩, fun own => ?_, fun i t _ there => ?_⟩
  · show (m.threads.modify id _)[m.current]? = _
    rw [Array.getElem?_modify, if_neg other]
    exact own
  · show ∃ t', (m.threads.modify id _)[i]? = some t' ∧ _
    rw [Array.getElem?_modify, there]
    split
    · exact ⟨_, rfl, .of_stack t _⟩
    · exact ⟨t, rfl, .of_stack t t.stack⟩

theorem minds_writeCell (m : Machine) (id : Nat) (v : Value) : Minds m (m.writeCell id v) := by
  unfold writeCell
  split
  · exact .of_threads ⟨rfl, rfl, Nat.le_refl _⟩ rfl
  · next thread i _ =>
    split
    · exact .of_threads ⟨rfl, rfl, Nat.le_refl _⟩ rfl
    · next other => exact minds_modify m (by simpa using other) fun stack => stack.setIfInBounds i v
  · exact .of_threads ⟨rfl, rfl, Nat.le_refl _⟩ rfl

theorem threads_closeCells (m : Machine) (floor : Nat) : (m.closeCells floor).threads = m.threads := by
  unfold closeCells
  split
  · rfl
  · split <;> rfl

theorem threads_capture (m : Machine) (slot : Nat) : (m.capture slot).2.threads = m.threads := by
  unfold capture
  split <;> rfl

/-- A change of a step concerns at most the stack of another coroutine. -/
theorem Change.minds (change : Change m m') : Minds m m' := by
  have keeps : Keeps m m' := .of_seat change.seat
  cases change with
  | calls frames known same => exact .of_threads keeps (threads_of_core (m := { m with frames }) same)
  | capture slot => exact .of_threads keeps (threads_capture m slot)
  | closeCells floor => exact .of_threads keeps (threads_closeCells m floor)
  | write active code v => exact minds_writeCell m _ v
  | make active inner known => exact .of_threads keeps rfl
  | install c first => exact .of_threads keeps rfl

theorem threads_park (m : Machine) (status : ThreadStatus) : (m.park status).threads =
    m.threads.setIfInBounds m.current
      ⟨status, m.stack, m.top, m.heldFrames, m.cells, m.closers, m.handler⟩ := rfl

theorem threads_unpark (m : Machine) (id : Nat) :
    (m.unpark id).threads = m.threads.setIfInBounds id (.empty .active) := by
  simp [unpark]

/-- Another coroutine runs in between, and is put aside again. -/
theorem Minds.switched {m inner inner' m' : Machine} {id : Nat} {status : ThreadStatus}
    (h : Minds inner inner') (begun : inner.threads = ((m.park .active).unpark id).threads)
    (current : inner.current = id) (keeps : Keeps m m')
    (ended : m'.threads = ((inner'.park status).unpark m.current).threads)
    (left : ∀ t t', m.threads[id]? = some t → t'.status = status → t.Stays t') : Minds m m' := by
  rw [threads_unpark, threads_park] at begun ended
  rw [h.current, current] at ended
  have size : m.threads.size ≤ inner'.threads.size := by
    have size := h.threads
    rwa [begun, Array.size_setIfInBounds, Array.size_setIfInBounds] at size
  refine ⟨keeps, fun own => ?_, fun j t other there => ?_⟩
  · have lt := (Array.getElem?_eq_some_iff.1 own).1
    rw [ended]
    exact Array.getElem?_setIfInBounds_self_of_lt (by rw [Array.size_setIfInBounds]; omega)
  · have lt := (Array.getElem?_eq_some_iff.1 there).1
    rw [ended, Array.getElem?_setIfInBounds_ne (Ne.symm other)]
    by_cases ran : j = id
    · subst ran
      exact ⟨_, Array.getElem?_setIfInBounds_self_of_lt (by omega), left t _ there rfl⟩
    · rw [Array.getElem?_setIfInBounds_ne (Ne.symm ran)]
      refine h.others j t (current ▸ ran) ?_
      rw [begun, Array.getElem?_setIfInBounds_ne (Ne.symm ran),
        Array.getElem?_setIfInBounds_ne (Ne.symm other)]
      exact there

theorem threads_handBack (m inner : Machine) (stop : Stop) : (m.handBack stop inner).2.threads =
    ((inner.park stop.status).unpark m.current).threads := by
  cases stop <;> rfl

/-- The brackets leave the coroutines that wait as they are. -/
theorem bracketed_minds : Bracketed Minds where
  of_change change := change.minds
  disclosing m d := .of_threads (bracketed_keeps.disclosing m d) rfl
  trans := Minds.trans
  held h := h.held
  nested h := ⟨bracketed_keeps.nested h.toKeeps, h.own, h.others⟩
  newThread m f := by
    have pushed (id : Nat) (t : Thread) (there : m.threads[id]? = some t) :
        (m.newThread f).2.threads[id]? = some t := by
      have lt := (Array.getElem?_eq_some_iff.1 there).1
      rw [newThread, Array.getElem?_push_lt lt, ← there, Array.getElem?_eq_getElem lt]
    exact ⟨bracketed_keeps.newThread m f, pushed _ _, fun id t _ there =>
      ⟨t, pushed id t there, .of_stack t t.stack⟩⟩
  turn {m inner inner' id args} stop entered h := by
    have keeps := bracketed_keeps.turn stop entered h.toKeeps
    have current := (size_entered entered).1
    obtain ⟨other, suspended, control, rfl⟩ := entered_eq entered
    refine h.switched rfl current keeps (threads_handBack m inner' stop) fun t t' there _ => ?_
    refine .of_isOpen (Decidable.byContradiction fun shut => ?_)
    have closed : t.status.isOpen = false := by simpa using shut
    have status : m.statuses[id]? = some t.status := by rw [← status_eq, there, Option.map_some]
    exact ((shut_iff m id).1 ⟨t.status, status, .inr closed⟩).2 suspended
  close {m m' id} h := by
    refine h.switched rfl (current_unpark _ _) (bracketed_keeps.close h.toKeeps) rfl fun t t' _ status => ?_
    exact .of_closed status

/-! ## A coroutine that goes on -/

/-- The machine that is about to give a coroutine a turn from outside. -/
def outside (m : Machine) : Machine := { m.rested with depth := 0 }

theorem liveness_outside (m : Machine) (id : Nat) : m.outside.liveness id = m.liveness id := rfl

/-- The machine in which what would suspend the coroutine gives back at once, without
results. -/
def goingOn (m : Machine) (deliver : Deliver) : Machine :=
  { m with frames := m.heldFrames, control := .give #[] deliver }

/-- The machine after a turn from outside that ended with the coroutine suspended. -/
def setAside (m inner : Machine) (deliver : Deliver) : Machine :=
  (m.outside.handBack (.suspended #[] deliver) inner).2

/-- A coroutine that is suspended is given a turn. -/
theorem entered_suspended {m : Machine} {id : Nat} {t : Thread} {deliver : Deliver}
    (other : id ≠ m.current) (shallow : m.depth < depthBound) (found : m.threads[id]? = some t)
    (status : t.status = .suspended deliver) (args : Array Value) : m.entered id args =
      .ok { (m.park .active).unpark id with
        turns := id :: m.turns, depth := m.depth + 1, held := 0, control := .give args deliver } := by
  have apart : (id == m.current) = false := by simpa using other
  have room : ¬ depthBound ≤ m.depth := by omega
  simp [entered, apart, found, status, room]

theorem unpark_eq {m : Machine} {id : Nat} {t : Thread} (found : m.threads[id]? = some t) :
    m.unpark id = { m with
      threads := m.threads.setIfInBounds id (.empty .active), current := id
      stack := t.stack, top := t.top, cells := t.cells, closers := t.closers
      handler := t.handler }.withFrames t.frames := by
  have there : m.threads.getD id (.empty .active) = t := by simp [Array.getD_eq_getD_getElem?, found]
  rw [unpark, there]

/-- The place of the innermost call is the one that was noted. -/
theorem withFrames_heldFrames {m m' : Machine} (pc : m'.pc = m.pc) :
    m'.withFrames m.heldFrames = { m' with frames := m.heldFrames } := by
  unfold heldFrames
  split
  · rw [withFrames, ← pc]
  · next frames other =>
    unfold withFrames
    split
    · next a rest same => exact absurd same (other a rest)
    · rfl

/-- What is put aside about the coroutine that has its turn. -/
theorem thread_entered {m inner : Machine} {id : Nat} {args : Array Value}
    (begun : m.entered id args = .ok inner) :
    inner.threads[inner.current]? = some (.empty .active) := by
  rw [(size_entered begun).1]
  obtain ⟨-, suspended, control, rfl⟩ := entered_eq begun
  show (Machine.unpark _ id).threads[id]? = _
  rw [threads_unpark]
  exact Array.getElem?_setIfInBounds_self_of_lt (by simpa [size_park] using lt_of_suspended suspended)

/-- What is put aside about the main thread while another coroutine has its turn. -/
theorem thread_outside {m inner : Machine} {id : Nat} {args : Array Value}
    (begun : m.outside.entered id args = .ok inner) (there : m.current < m.threads.size) :
    inner.threads[m.current]? = some ⟨.active, m.stack, 1, [], m.cells, m.closers, none⟩ := by
  obtain ⟨other, -, control, rfl⟩ := entered_eq begun
  have other : id ≠ m.current := other
  show (Machine.unpark _ id).threads[m.current]? = _
  rw [threads_unpark, Array.getElem?_setIfInBounds_ne other, threads_park]
  exact Array.getElem?_setIfInBounds_self_of_lt there

/-- Two elements are put in place again. -/
theorem restore_setIfInBounds {α : Type} {xs : Array α} {i j : Nat} {x y : α} (x' y' : α)
    (first : xs[i]? = some x) (second : xs[j]? = some y) :
    (((xs.setIfInBounds i x').setIfInBounds j y').setIfInBounds j y).setIfInBounds i x = xs := by
  obtain ⟨lt, rfl⟩ := Array.getElem?_eq_some_iff.1 first
  obtain ⟨lt', rfl⟩ := Array.getElem?_eq_some_iff.1 second
  refine Array.ext_getElem? fun k => ?_
  simp only [Array.getElem?_setIfInBounds, Array.size_setIfInBounds]
  by_cases atFirst : i = k
  · subst atFirst
    simp [lt]
  · by_cases atSecond : j = k
    · subst atSecond
      simp [atFirst, lt']
    · simp [atFirst, atSecond]

section Again

variable {m inner inner' : Machine} {id : Nat} {args : Array Value}
variable (begun : m.outside.entered id args = .ok inner) (there : m.current < m.threads.size)
  (minds : Minds inner inner') (waits : inner'.statuses[m.current]? = some .active)
include begun there minds waits

/-- The main thread is as it was, but for its stack. -/
theorem thread_waits : ∃ stack, inner'.threads[m.current]? =
    some ⟨.active, stack, 1, [], m.cells, m.closers, none⟩ := by
  have other : m.current ≠ inner.current := by
    rw [(size_entered begun).1]
    exact Ne.symm (entered_eq begun).1
  obtain ⟨t', found, stays⟩ := minds.others _ _ other (thread_outside begun there)
  rcases stays.waits rfl with closed | ⟨stack, rfl⟩
  · rw [← status_eq, found, Option.map_some, closed] at waits
    cases waits
  · exact ⟨stack, found⟩

/-- The main thread when the coroutine was set aside. -/
theorem outside_setAside (deliver : Deliver) : ∃ stack, (m.setAside inner' deliver).outside = { inner' with
    threads := (inner'.park (.suspended deliver)).threads.setIfInBounds m.current (.empty .active)
    current := m.current, stack, top := 1, frames := [], cells := m.cells, closers := m.closers
    handler := none, depth := 0, held := 1, control := .run } ∧
    inner'.threads[m.current]? = some ⟨.active, stack, 1, [], m.cells, m.closers, none⟩ := by
  obtain ⟨stack, found⟩ := thread_waits begun there minds waits
  refine ⟨stack, ?_, found⟩
  have other : inner'.current ≠ m.current := by
    rw [minds.current, (size_entered begun).1]
    exact (entered_eq begun).1
  have found' : (inner'.park (.suspended deliver)).threads[m.current]? =
      some ⟨.active, stack, 1, [], m.cells, m.closers, none⟩ := by
    rw [threads_park, Array.getElem?_setIfInBounds_ne other, found]
  show { { (inner'.park (.suspended deliver)).unpark m.current with
    depth := 0, held := 1, control := .run }.rested with depth := 0 } = _
  rw [unpark_eq found']
  rfl

/-- A coroutine that is suspended in a turn from outside, where none but the program's own
calls wait, and that is given the next turn at once, goes on. -/
theorem entered_setAside (deliver : Deliver) (shallow : inner'.depth = 1) :
    (m.setAside inner' deliver).outside.entered id #[] =
      .ok { inner'.goingOn deliver with turns := id :: inner'.turns } := by
  obtain ⟨stack, set, found⟩ := outside_setAside begun there minds waits deliver
  have other : id ≠ m.current := (entered_eq begun).1
  have current : inner'.current = id := minds.current.trans (size_entered begun).1
  have held : inner'.held = 0 := minds.held.trans (size_entered begun).2.1
  have own : inner'.threads[id]? = some (.empty .active) := by
    have own := minds.own (thread_entered begun)
    rwa [(size_entered begun).1] at own
  have lt : id < inner'.threads.size := (Array.getElem?_eq_some_iff.1 own).1
  let parked : Thread := ⟨.suspended deliver, inner'.stack, inner'.top, inner'.heldFrames,
    inner'.cells, inner'.closers, inner'.handler⟩
  have threads : (inner'.park (.suspended deliver)).threads = inner'.threads.setIfInBounds id parked := by
    rw [threads_park, current]
  rw [threads] at set
  generalize (m.setAside inner' deliver).outside = outer at set
  have before : outer.threads[id]? = some parked := by
    rw [set, Array.getElem?_setIfInBounds_ne (Ne.symm other)]
    exact Array.getElem?_setIfInBounds_self_of_lt lt
  have behind : (outer.park .active).threads[id]? = some parked := by
    rw [threads_park, ← before, set, Array.getElem?_setIfInBounds_ne (Ne.symm other)]
  have turned := entered_suspended (by rw [set]; exact other)
    (by rw [set]; show 0 < depthBound; decide) before rfl #[]
  have frames : ({ outer.park .active with
      threads := (outer.park .active).threads.setIfInBounds id (.empty .active), current := id
      stack := parked.stack, top := parked.top, cells := parked.cells, closers := parked.closers
      handler := parked.handler } : Machine).withFrames inner'.heldFrames = _ :=
    withFrames_heldFrames (m := inner') (by rw [set]; rfl)
  have restored : (outer.park .active).threads.setIfInBounds id (.empty .active) = inner'.threads := by
    rw [threads_park, set]
    exact restore_setIfInBounds _ _ own found
  rw [turned, unpark_eq behind, frames, restored, set]
  simp [goingOn, current, held, shallow, parked, park]

end Again

end Machine

end Lua

end NpcDialog
