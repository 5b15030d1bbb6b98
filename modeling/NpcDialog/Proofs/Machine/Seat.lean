import NpcDialog.Proofs.Machine.Changes

/-!
# Which coroutine runs

An instruction never changes which coroutine runs, how many calls keep it from
being suspended, what the coroutines are up to, or which of them had turns, and
it shows the program nothing of the notes on its code.

* `Machine.seat` — these things.
* `Machine.Change.seat` — no change of a step concerns them.
-/

namespace NpcDialog.Lua.Machine

/-- The running coroutine, how many calls keep it from being suspended, what the
coroutines are up to, which of them had turns, and what was shown of notes and memory. -/
def seat (m : Machine) : Nat × Nat × Array ThreadStatus × List Nat × Disclosures :=
  (m.current, m.held, m.threads.map Thread.status, m.turns, m.shown)

variable {m m' : Machine}

theorem seat_of_core (same : m'.core = m.core) : m'.seat = m.seat :=
  show m'.core.seat = m.core.seat by rw [same]

theorem seat_withFrames (m : Machine) (frames : List Frame) : (m.withFrames frames).seat = m.seat :=
  (seat_of_core (m := { m with frames }) (core_withFrames m frames)).trans rfl

/-- A change of stacks leaves alone what the coroutines are up to. -/
theorem status_modify (threads : Array Thread) (id : Nat) (f : Array Value → Array Value) :
    (threads.modify id fun t => { t with stack := f t.stack }).map Thread.status =
      threads.map Thread.status := by
  apply Array.ext
  · simp
  · intro i hi hi'
    simp only [Array.getElem_map, Array.getElem_modify]
    split <;> rfl

theorem seat_writeCell (m : Machine) (id : Nat) (v : Value) : (m.writeCell id v).seat = m.seat := by
  unfold writeCell
  split
  · rfl
  · next thread i _ =>
    split
    · rfl
    · simp only [seat]
      rw [status_modify m.threads thread fun stack => stack.setIfInBounds i v]
  · rfl

theorem seat_capture (m : Machine) (slot : Nat) : (m.capture slot).2.seat = m.seat := by
  unfold capture
  split <;> rfl

theorem seat_closeCells (m : Machine) (floor : Nat) : (m.closeCells floor).seat = m.seat := by
  unfold closeCells
  split
  · rfl
  · split <;> rfl

/-- No change of a step concerns the seat. -/
theorem Change.seat (change : Change m m') : m'.seat = m.seat := by
  cases change with
  | calls frames known same => exact seat_of_core (m := { m with frames }) same
  | capture slot => exact seat_capture m slot
  | closeCells floor => exact seat_closeCells m floor
  | write active code v => exact seat_writeCell m _ v
  | make active inner known => rfl
  | install c first => rfl

end NpcDialog.Lua.Machine
