import NpcDialog.Proofs.Machine.Keeps

/-!
# Turns of a coroutine

The machine keeps a record of the turns that its coroutines had.  A coroutine that
runs, that waits for another one or that is over can have no further turn: it
stays so in every run, and no run adds a turn of it to the record.  So a coroutine
that is given a turn from outside has exactly this one, whatever the program does
in it.

* `Machine.Shut` — a coroutine that cannot be given a turn.
* `Machine.Spares` — a later machine in which such coroutines had no turns.
* `Machine.bracketed_spares` — so it is after every run.
* `Machine.turnTaken_resumeThread` — one turn, from outside.
-/

namespace NpcDialog

open Lua

namespace Lua

/-- Can a coroutine that is up to this be given a turn? -/
def ThreadStatus.isOpen : ThreadStatus → Bool
  | .fresh _ | .suspended _ => true
  | _ => false

namespace Machine

/-! ## Coroutines that cannot be given a turn -/

/-- What the coroutines are up to. -/
def statuses (m : Machine) : Array ThreadStatus := m.threads.map Thread.status

/-- There is such a coroutine, and it runs, waits for another one or is over. -/
def Shut (m : Machine) (id : Nat) : Prop :=
  ∃ s, m.statuses[id]? = some s ∧ (id = m.current ∨ s.isOpen = false)

/-- Only coroutines that there are had turns. -/
def TurnsKnown (m : Machine) : Prop := ∀ id ∈ m.turns, id < m.threads.size

theorem size_statuses (m : Machine) : m.statuses.size = m.threads.size := by simp [statuses]

theorem status_eq (m : Machine) (id : Nat) :
    (m.threads[id]?).map Thread.status = m.statuses[id]? := by
  simp [statuses]

/-- A coroutine cannot be given a turn just if it does not look suspended. -/
theorem shut_iff (m : Machine) (id : Nat) :
    m.Shut id ↔ id < m.threads.size ∧ m.liveness id ≠ .suspended := by
  rw [Shut, liveness, status_eq, ← size_statuses]
  by_cases there : id < m.statuses.size
  · have found : m.statuses[id]? = some m.statuses[id] := Array.getElem?_eq_getElem there
    rw [found]
    by_cases runs : id = m.current
    · subst runs
      simpa using there
    · cases h : m.statuses[id] <;> simp [there, runs, ThreadStatus.isOpen]
  · simp [there]

theorem statuses_park (m : Machine) (s : ThreadStatus) :
    (m.park s).statuses = m.statuses.setIfInBounds m.current s :=
  congrArg (·.2.2.1) (seat_park m s)

theorem statuses_unpark (m : Machine) (id : Nat) :
    (m.unpark id).statuses = m.statuses.setIfInBounds id .active :=
  congrArg (·.2.2.1) (seat_unpark m id)

theorem turns_unpark (m : Machine) (id : Nat) : (m.unpark id).turns = m.turns :=
  congrArg (·.2.2.2.1) (seat_unpark m id)

/-- When another coroutine is put in the running one's place, coroutines that could
not be given a turn still cannot: the one that ran waits, the other one runs. -/
theorem Shut.switch {m : Machine} {id : Nat} (h : m.Shut id) (other : Nat) :
    ((m.park .active).unpark other).Shut id := by
  obtain ⟨s, found, why⟩ := h
  have there := (Array.getElem?_eq_some_iff.1 found).1
  rw [Shut, statuses_unpark, statuses_park, current_unpark]
  by_cases entered : id = other
  · subst entered
    refine ⟨.active, ?_, .inl rfl⟩
    exact Array.getElem?_setIfInBounds_self_of_lt (by simpa using there)
  · rw [Array.getElem?_setIfInBounds_ne (Ne.symm entered)]
    by_cases runs : id = m.current
    · subst runs
      exact ⟨.active, Array.getElem?_setIfInBounds_self_of_lt there, .inr rfl⟩
    · rw [Array.getElem?_setIfInBounds_ne (Ne.symm runs)]
      exact ⟨s, found, .inr (why.resolve_left runs)⟩

/-- The same when the one before runs again, if the other one is over or was not
among them. -/
theorem Shut.switchBack {m : Machine} {id : Nat} (h : m.Shut id) {s : ThreadStatus}
    (closed : id = m.current → s.isOpen = false) (outer : Nat) :
    ((m.park s).unpark outer).Shut id := by
  obtain ⟨s', found, why⟩ := h
  have there := (Array.getElem?_eq_some_iff.1 found).1
  rw [Shut, statuses_unpark, statuses_park, current_unpark]
  by_cases back : id = outer
  · subst back
    refine ⟨.active, ?_, .inl rfl⟩
    exact Array.getElem?_setIfInBounds_self_of_lt (by simpa using there)
  · rw [Array.getElem?_setIfInBounds_ne (Ne.symm back)]
    by_cases ran : id = m.current
    · have ended : s.isOpen = false := closed ran
      subst ran
      exact ⟨s, Array.getElem?_setIfInBounds_self_of_lt there, .inr ended⟩
    · rw [Array.getElem?_setIfInBounds_ne (Ne.symm ran)]
      exact ⟨s', found, .inr (why.resolve_left ran)⟩

/-! ## Runs -/

/-- A later machine on which the coroutines that could not be given a turn still
cannot, and had none. -/
structure Spares (m m' : Machine) : Prop extends Keeps m m' where
  shut : ∀ id, m.Shut id → m'.Shut id
  turns : ∀ id, m.Shut id → m'.turns.count id = m.turns.count id
  known : m.TurnsKnown → m'.TurnsKnown

namespace Spares

variable {m m' m'' : Machine}

theorem of_seat (h : m'.seat = m.seat) : Spares m m' := by
  have keeps := Keeps.of_seat h
  injection h with current rest
  injection rest with held rest
  injection rest with threads rest
  injection rest with turns shown
  refine ⟨keeps, ?_, ?_, ?_⟩
  · rintro id ⟨s, found, why⟩
    refine ⟨s, ?_, by rwa [current]⟩
    rw [statuses, threads]
    exact found
  · intro id _
    rw [turns]
  · intro known id mem
    rw [turns] at mem
    exact Nat.lt_of_lt_of_le (known id mem) keeps.threads

theorem trans (h : Spares m m') (h' : Spares m' m'') : Spares m m'' where
  toKeeps := h.toKeeps.trans h'.toKeeps
  shut id shut := h'.shut id (h.shut id shut)
  turns id shut := (h'.turns id (h.shut id shut)).trans (h.turns id shut)
  known known := h'.known (h.known known)

end Spares

theorem shut_entered {m inner : Machine} {id other : Nat} {args : Array Value}
    (entered : m.entered other args = .ok inner) (h : m.Shut id) :
    id ≠ other ∧ inner.Shut id ∧ inner.turns.count id = m.turns.count id := by
  obtain ⟨-, suspended, control, rfl⟩ := entered_eq entered
  have ne : id ≠ other := by
    rintro rfl
    exact ((shut_iff m id).1 h).2 suspended
  refine ⟨ne, h.switch other, ?_⟩
  exact List.count_cons_of_ne ne.symm

/-- Only coroutines that there are look suspended. -/
theorem lt_of_suspended {m : Machine} {id : Nat} (waits : m.liveness id = .suspended) :
    id < m.threads.size := by
  refine Nat.lt_of_not_le fun out => ?_
  have absent : m.statuses[id]? = none := Array.getElem?_eq_none (by rwa [size_statuses])
  rw [liveness, status_eq, absent] at waits
  split at waits <;> cases waits

theorem turnsKnown_entered {m inner : Machine} {id : Nat} {args : Array Value}
    (entered : m.entered id args = .ok inner) (known : m.TurnsKnown) : inner.TurnsKnown := by
  have size := (size_entered entered).2.2
  obtain ⟨-, suspended, control, rfl⟩ := entered_eq entered
  intro i mem
  rw [size]
  rcases List.mem_cons.1 mem with rfl | mem
  · exact lt_of_suspended suspended
  · exact known i mem

theorem turns_handBack (m inner : Machine) (stop : Stop) :
    (m.handBack stop inner).2.turns = inner.turns := by
  cases stop <;> exact turns_unpark _ _

theorem size_handBack (m inner : Machine) (stop : Stop) :
    (m.handBack stop inner).2.threads.size = inner.threads.size := by
  simp [handBack, size_unpark, size_park]

theorem shut_handBack {m inner : Machine} {id : Nat} (h : inner.Shut id) (ne : id ≠ inner.current)
    (stop : Stop) : (m.handBack stop inner).2.Shut id := by
  cases stop <;> exact h.switchBack (fun same => absurd same ne) _

/-- The brackets spare the coroutines that cannot be given a turn. -/
theorem bracketed_spares : Bracketed Spares where
  of_change change := .of_seat change.seat
  disclosing m d :=
    ⟨bracketed_keeps.disclosing m d, fun _ shut => shut, fun _ _ => rfl, fun known => known⟩
  trans := Spares.trans
  held h := h.held
  nested h := ⟨bracketed_keeps.nested h.toKeeps, h.shut, h.turns, h.known⟩
  newThread m f := by
    refine ⟨bracketed_keeps.newThread m f, ?_, fun _ _ => rfl, ?_⟩
    · rintro id ⟨s, found, why⟩
      refine ⟨s, ?_, why⟩
      have there := (Array.getElem?_eq_some_iff.1 found).1
      have pushed : (m.newThread f).2.statuses = m.statuses.push (.fresh f) := by
        simp [statuses, newThread, Thread.empty]
      rw [pushed, Array.getElem?_push_lt there, ← found, Array.getElem?_eq_getElem there]
    · intro known id mem
      have lt := known id mem
      simp only [newThread, Array.size_push]
      omega
  turn {m inner inner' other args} stop entered spares := by
    have current : inner'.current = other := spares.current.trans (size_entered entered).1
    refine ⟨bracketed_keeps.turn stop entered spares.toKeeps, ?_, ?_, ?_⟩
    · intro id shut
      obtain ⟨ne, inside, -⟩ := shut_entered entered shut
      exact shut_handBack (spares.shut id inside) (by rwa [current]) stop
    · intro id shut
      obtain ⟨-, inside, count⟩ := shut_entered entered shut
      rw [turns_handBack, spares.turns id inside, count]
    · intro known id mem
      rw [turns_handBack] at mem
      rw [size_handBack]
      exact spares.known (turnsKnown_entered entered known) id mem
  close {m m' other} spares := by
    have before : ((m.park .active).unpark other).turns = m.turns := turns_unpark _ _
    have behind : ((m'.park .finished).unpark m.current).turns = m'.turns := turns_unpark _ _
    refine ⟨bracketed_keeps.close spares.toKeeps, ?_, ?_, ?_⟩
    · intro id shut
      have inside := spares.shut id (shut.switch other)
      exact inside.switchBack (s := .finished) (fun _ => rfl) m.current
    · intro id shut
      have inside := spares.turns id (shut.switch other)
      show ((m'.park .finished).unpark m.current).turns.count id = _
      rw [behind, inside, before]
    · intro known id mem
      have inside : TurnsKnown { (m.park .active).unpark other with held := 1 } := by
        intro i mem
        show i < ((m.park .active).unpark other).threads.size
        rw [size_unpark, size_park]
        rw [before] at mem
        exact known i mem
      have lt := spares.known inside id (by rwa [behind] at mem)
      simpa [size_unpark, size_park] using lt

/-! ## A turn from outside -/

theorem entered_of_suspended {m : Machine} {id : Nat} (waits : m.liveness id = .suspended)
    (shallow : m.depth < depthBound) (args : Array Value) :
    ∃ inner, m.entered id args = .ok inner := by
  have room : ¬ depthBound ≤ m.depth := by omega
  by_cases runs : id = m.current
  · simp [liveness, runs] at waits
  · have other : (id == m.current) = false := by simpa using runs
    simp only [entered, liveness, other, room, Bool.false_eq_true, if_false] at waits ⊢
    generalize (m.threads[id]?).map Thread.status = status at waits ⊢
    cases status with
    | none => cases waits
    | some status =>
      cases status with
      | fresh f => exact ⟨_, rfl⟩
      | suspended deliver => exact ⟨_, rfl⟩
      | _ => cases waits

/-- A coroutine that has its turn runs, and the turn is on record. -/
theorem entered_runs {m inner : Machine} {id : Nat} {args : Array Value}
    (entered : m.entered id args = .ok inner) :
    inner.Shut id ∧ inner.turns.count id = m.turns.count id + 1 := by
  obtain ⟨-, suspended, control, rfl⟩ := entered_eq entered
  refine ⟨⟨.active, ?_, .inl (current_unpark _ _).symm⟩, List.count_cons_self⟩
  have there := lt_of_suspended suspended
  show ((m.park .active).unpark id).statuses[id]? = _
  rw [statuses_unpark]
  exact Array.getElem?_setIfInBounds_self_of_lt (by simpa [size_statuses, size_park] using there)

/-- What comes of a coroutine's turn: it had this one and no other, and if it failed
it is over. -/
structure TurnTaken (id : Nat) (m : Machine) (answer : Except Fault (Array Value) × Machine) :
    Prop where
  current : answer.2.current = m.current
  threads : m.threads.size ≤ answer.2.threads.size
  turns : answer.2.turns.count id = m.turns.count id + 1
  known : m.TurnsKnown → answer.2.TurnsKnown
  failed : ∀ f, answer.1 = .error f → answer.2.Shut id

/-- A coroutine that is given a turn from outside has this one and no other: while
it runs it cannot be given another one. -/
theorem turnTaken_resumeThread {m : Machine} {id : Nat} (waits : m.liveness id = .suspended)
    (args : Array Value) :
    Conversing.Ensures (TurnTaken id m) (m.resumeThread id args) := by
  have shallow : 0 < depthBound := by decide
  obtain ⟨inner, entered⟩ :=
    entered_of_suspended (m := { m.rested with depth := 0 }) waits shallow args
  obtain ⟨runs, turned⟩ := entered_runs entered
  have known := turnsKnown_entered entered
  have size := (size_entered entered).2.2
  have current := (size_entered entered).1
  rw [resumeThread, resume, entered]
  refine .bind (bracketed_spares.runWithin levels inner) fun answer spares => .pure ?_
  obtain ⟨stop, inner'⟩ := answer
  have ran : inner'.current = id := spares.current.trans current
  refine ⟨current_unpark _ _, ?_, ?_, ?_, ?_⟩
  · rw [size_handBack]
    exact size ▸ spares.threads
  · rw [turns_handBack, spares.turns id runs]
    exact turned
  · intro before i mem
    rw [turns_handBack] at mem
    rw [size_handBack]
    exact spares.known (known before) i mem
  · intro f failed
    have shut := spares.shut id runs
    cases stop with
    | returned vs => cases failed
    | suspended vs deliver => cases failed
    | failed e => exact shut.switchBack (fun _ => rfl) _

end Machine

end Lua

end NpcDialog
