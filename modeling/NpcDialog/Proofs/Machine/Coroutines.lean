import NpcDialog.Proofs.Machine.Slots

/-!
# Turns of a coroutine that asked the host

A coroutine that is suspended inside a call of `next` waits there, with all its
calls, and its next turn begins with the end of that call.  Whoever resumed it
goes on in the meantime.

* `Machine.Waits` — a coroutine waits inside a call.
* `Machine.Asks.waits` — so it does when its turn ends with the call.
* `Machine.BackFrom` — a call has just ended without results.
* `Machine.Waits.goesOn` — the next turn.
-/

namespace NpcDialog.Lua.Machine

open Bytes (ofText)

/-! ## Where a coroutine waits -/

/-- A coroutine other than the running one waits inside the call `a` of `next`. -/
structure Waits (m : Machine) (id : Nat) (a : Activation) (rest : List Frame) : Prop where
  other : id ≠ m.current
  thread : ∃ t, m.threads[id]? = some t ∧ t.status = .suspended (.slots a.base none) ∧
    t.frames = .lua { a with pc := 8 } :: rest
  body : IsSuspender a.body
  memory : m.heap.limit = 0 ∨ m.heap.used ≤ m.heap.limit

theorem Waits.liveness_eq {m : Machine} {id : Nat} {a : Activation} {rest : List Frame}
    (h : m.Waits id a rest) : m.liveness id = .suspended := by
  obtain ⟨t, found, status, _⟩ := h.thread
  simp [liveness, h.other, found, status]

theorem entered_other {m inner : Machine} {id : Nat} {args : Array Value}
    (h : m.entered id args = .ok inner) : id ≠ m.current ∧ id < m.threads.size := by
  simp only [entered] at h
  split at h
  · cases h
  · next other =>
    refine ⟨by simpa using other, ?_⟩
    refine Decidable.byContradiction fun out => ?_
    have none : m.threads[id]? = none := by simpa using out
    rw [none] at h
    cases h

/-- A coroutine that was suspended is left as it was. -/
theorem thread_handBack (m inner : Machine) (vs : Array Value) (deliver : Deliver)
    (there : inner.current < inner.threads.size) (other : inner.current ≠ m.current) :
    (m.handBack (.suspended vs deliver) inner).2.threads[inner.current]? =
      some ⟨.suspended deliver, inner.stack, inner.top, inner.heldFrames, inner.cells,
        inner.closers,
        inner.handler⟩ := by
  simp [handBack, unpark, park, Array.getElem?_setIfInBounds, there, other.symm]

@[simp] theorem heap_withFrames (m : Machine) (frames : List Frame) :
    (m.withFrames frames).heap = m.heap := by
  unfold withFrames
  split <;> rfl

@[simp] theorem heap_unpark (m : Machine) (id : Nat) : (m.unpark id).heap = m.heap := by
  simp [unpark]

theorem handBack_keeps (m inner : Machine) (stop : Stop)
    (size : m.threads.size ≤ inner.threads.size) :
    m.Keeps (m.handBack stop inner).2 :=
  ⟨current_unpark _ _, rfl, by simpa [handBack, size_unpark, size_park] using size⟩

/-- A turn that ends inside a call of `next` leaves the coroutine waiting there, and
the one that resumed it goes on. -/
theorem Asks.handsBack {n id : Nat} {m₁ m₀ m : Machine} {v₀ v : Conversation} {a : Activation}
    {rest : List Frame} {s : InteractionScope} {args : Array Value} (h : Asks n m₀ v₀ m v a rest s)
    (entered : m₁.entered id args = .ok m₀) :
    ∃ m₂, resume (runWithin (n + 1)) id args m₁ v₀ = ((.ok #[], m₂), v.notified s) ∧
      m₂.Waits id a rest ∧ m₁.Keeps m₂ ∧ m₂.control = .run := by
  obtain ⟨other, there⟩ := entered_other entered
  obtain ⟨current, free, size⟩ := size_entered entered
  have runs : (m.waiting a).current = id := h.keeps.current.trans current
  have more : m₁.threads.size ≤ (m.waiting a).threads.size := size ▸ h.keeps.threads
  let m₂ := (m₁.handBack (.suspended #[] (.slots a.base none)) (m.waiting a)).2
  have kept : m₁.Keeps m₂ := handBack_keeps m₁ (m.waiting a) _ more
  have left := thread_handBack m₁ (m.waiting a) #[] (.slots a.base none)
    (by rw [runs]; exact Nat.lt_of_lt_of_le there more) (by rwa [runs])
  rw [runs] at left
  have frames : (m.waiting a).heldFrames = .lua { a with pc := 8 } :: rest := by
    simp [heldFrames, waiting, yielding, h.notifies.frames]
  have memory : m₂.heap = m.heap := by
    show ((Machine.unpark _ _).heap) = _
    rw [heap_unpark]
    rfl
  refine ⟨m₂, ?_, ⟨?_, ⟨_, left, rfl, frames⟩, h.notifies.body, ?_⟩, kept, rfl⟩
  · rw [resume, entered]
    show ((runWithin (n + 1) m₀ >>= fun answer => pure (m₁.handBack answer.1 answer.2)) :
      Conversing _) v₀ = _
    rw [Conversing.bind_apply, h.stops free]
    rfl
  · rw [kept.current]
    exact other
  · rw [memory]
    exact h.notifies.memory

/-! ## The next turn -/

/-- The call `a` has just ended without results: its caller goes on with the
instruction behind the call, once it has been given nothing. -/
structure BackFrom (m : Machine) (a : Activation) (rest : List Frame) : Prop where
  frames : m.frames = rest
  pc : ∀ b others, rest = .lua b :: others → m.pc = b.pc
  control : m.control = .run ∨ m.control = .give #[] a.deliver

theorem control_clearFrom (m : Machine) (start n : Nat) :
    (m.clearFrom start n).control = m.control := by
  induction n generalizing m start with
  | zero => rfl
  | succ n ih => exact ih _ _

theorem frames_withFrames (m : Machine) (frames : List Frame) :
    (m.withFrames frames).frames = frames := by
  unfold withFrames
  split <;> rfl

theorem pc_withFrames (m : Machine) (b : Activation) (others : List Frame) :
    (m.withFrames (.lua b :: others)).pc = b.pc := rfl

theorem leave_backFrom {m : Machine} {a : Activation} {start : Nat} {f : Frame} {rest : List Frame}
    (frames : m.frames = f :: rest) (control : m.control = .run) :
    (m.leave a start 0).BackFrom a rest := by
  unfold leave
  rw [frames]
  dsimp only
  split
  · refine ⟨rfl, fun b others same => ?_, .inl ?_⟩
    · cases same
      rfl
    · show (Machine.clearFrom _ _ _).control = _
      rw [control_clearFrom, Nat.min_zero]
      exact control
  · refine ⟨rfl, fun b others same => ?_, .inl control⟩
    cases same
    rfl
  · refine ⟨frames_withFrames m _, fun b others same => ?_, .inr ?_⟩
    · subst same
      exact pc_withFrames m b others
    · show Control.give (m.valuesFrom start 0) a.deliver = _
      rw [valuesFrom_zero]

theorem thread_park {m : Machine} {id : Nat} (other : id ≠ m.current) (status : ThreadStatus) :
    (m.park status).threads[id]? = m.threads[id]? := by
  simp [park, other.symm]

/-- A coroutine that a function of the program was innermost in runs again. -/
theorem unpark_lua {m : Machine} {id : Nat} {t : Thread} {b : Activation} {others : List Frame}
    (found : m.threads[id]? = some t) (frames : t.frames = .lua b :: others) :
    (m.unpark id).frames = .lua b :: others ∧ (m.unpark id).pc = b.pc := by
  have here : m.threads.getD id (.empty .active) = t := by
    rw [Array.getD_eq_getD_getElem?, found]
    rfl
  simp only [unpark, here, frames]
  exact ⟨rfl, rfl⟩

/-- Nothing is given to slots that take whatever there is. -/
theorem give_nothing (m : Machine) (start : Nat) :
    m.give #[] (.slots start none) =
      .next { { m with control := .run }.withSlots start with top := start } := by
  simp [give, putFrom, clearFrom]

/-- A coroutine that waits inside a call of `next` begins its next turn with the end
of that call, whenever that is. -/
theorem Waits.goesOn {m : Machine} {id : Nat} {a : Activation} {rest : List Frame}
    (h : m.Waits id a rest) (depth : m.depth < depthBound) (run : Runner) (v : Conversation) :
    ∃ m₀ m', m.entered id #[] = .ok m₀ ∧ Leads run 2 m₀ v m' v ∧ m'.BackFrom a rest := by
  obtain ⟨t, found, status, frames⟩ := h.thread
  let deliver : Deliver := .slots a.base none
  let m₀ : Machine := { (m.park .active).unpark id with
    turns := id :: m.turns, depth := m.depth + 1, held := 0, control := .give #[] deliver }
  let m₁ : Machine := { { m₀ with control := .run }.withSlots a.base with top := a.base }
  let m' : Machine := { m₁ with pc := 9 }.leave { a with pc := 8 } a.base 0
  have entered : m.entered id #[] = .ok m₀ := by
    have other : (id == m.current) = false := by simpa using h.other
    have shallow : ¬ depthBound ≤ m.depth := by omega
    simp [Machine.entered, other, found, status, shallow, m₀, deliver]
  have given : m₀.step run v = (.next m₁, v) := by
    show (m₀.give #[] deliver, v) = _
    rw [give_nothing]
  have unparked : m₀.frames = .lua { a with pc := 8 } :: rest ∧ m₀.pc = 8 :=
    unpark_lua (by rw [thread_park h.other, found]) frames
  obtain ⟨stack, padded⟩ : ∃ stack, ({ m₀ with control := .run } : Machine).withSlots a.base =
      { m₀ with control := .run, stack } := ⟨_, withSlots_eq _ _⟩
  have same : m₁ = { m₀ with control := .run, stack, top := a.base } := by
    show ({ Machine.withSlots _ _ with top := a.base } : Machine) = _
    rw [padded]
  have heap : m₀.heap = m.heap := heap_unpark (m.park .active) id
  have inside : m₁.InSuspender { a with pc := 8 } rest := by
    rw [same]
    exact ⟨unparked.1, h.body, heap ▸ h.memory⟩
  have returned := inside.returns run v (by rw [same]) (by rw [same]; exact unparked.2) rfl
  have control : { m₁ with pc := 9 }.control = .run := by rw [same]
  have back : m'.BackFrom { a with pc := 8 } rest :=
    leave_backFrom (m := { m₁ with pc := 9 }) inside.frames control
  exact ⟨m₀, m', entered, .step given (.one returned), back.frames, back.pc, back.control⟩

end NpcDialog.Lua.Machine
