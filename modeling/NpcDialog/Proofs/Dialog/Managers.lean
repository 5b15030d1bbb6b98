import NpcDialog.Dialog.Manager
import NpcDialog.Proofs.Dialog.Contexts

/-!
# What the operations of a manager come to

The exits of starting an interaction, of letting one go on and of ending one,
each with the answer, the manager, the host and the reports.  Before that, what
can be found in a manager after an interaction was put into it or taken out, and
what the end of a context comes to.

* `Context.drop_eq` — the end of a context.
* `Manager.Started`, `Manager.Resumed`, `Manager.Abandoned` — the exits.
-/

namespace NpcDialog

open Lua

/-- What changes only tables at each of some places changes only tables.  The induction is on
the places. -/
theorem Lua.Heap.exists_foldl {f : Heap → Nat → Heap}
    (only : ∀ h id, ∃ tables, f h id = { h with tables }) (h : Heap) (ids : List Nat) :
    ∃ tables, ids.foldl f h = { h with tables } := by
  induction ids generalizing h with
  | nil => exact ⟨h.tables, rfl⟩
  | cons id ids ih =>
    obtain ⟨first, here⟩ := only h id
    obtain ⟨tables, later⟩ := ih { h with tables := first }
    exact ⟨tables, by rw [List.foldl_cons, here, later]⟩

theorem Lua.Heap.exists_withoutValues (h : Heap) (ids : List Nat) (gone : Value → Bool) :
    ∃ tables, h.withoutValues ids gone = { h with tables } := by
  refine Heap.exists_foldl (fun h id => ?_) h ids
  split <;> exact ⟨_, rfl⟩

theorem Lua.Heap.exists_withoutKeys (h : Heap) (ids : List Nat) (gone : Value → Bool) :
    ∃ tables, h.withoutKeys ids gone = { h with tables } := by
  refine Heap.exists_foldl (fun h id => ?_) h ids
  split <;> exact ⟨_, rfl⟩

/-- Without tables that are to be finalized, weak references are all that a collection
changes. -/
theorem Lua.Machine.swept_of_unmarked {m : Machine} (unmarked : m.heap.marked = []) (slots : Nat) :
    ∃ tables, m.swept slots = ([], { m.heap.toHeap with tables }) := by
  unfold swept
  generalize m.marking false slots = k
  have none_ : (m.heap.marked.filter fun id => k.misses (.table id)) = [] := by rw [unmarked]; rfl
  simp only [none_]
  obtain ⟨first, left⟩ := m.heap.toHeap.exists_withoutValues k.weak k.misses
  rw [left]
  generalize Marking.finishAll _ m.things m.things _ = k
  obtain ⟨second, left⟩ := Heap.exists_withoutKeys { m.heap.toHeap with tables := first } k.weak k.misses
  obtain ⟨third, last⟩ := Heap.exists_withoutValues { m.heap.toHeap with tables := second } k.weak k.misses
  refine ⟨third, ?_⟩
  show ([], _) = _
  rw [show (m.withHeap { m.heap.toHeap with tables := first }).heap.toHeap =
    { m.heap.toHeap with tables := first } from rfl, left, last]
  simp [unmarked]

/-- Without tables that are to be finalized nothing is done at the end of a machine. -/
theorem Lua.Machine.release_of_unmarked {m : Machine} (unmarked : m.heap.marked = []) (v : Conversation) :
    ∃ m', m'.heap.files = m.heap.files ∧ m.release v = (m', v) := by
  obtain ⟨tables, swept⟩ := Machine.swept_of_unmarked (m := m.rested) unmarked 1
  have ends : m.rested.collect run 1 v = ((m.rested.withHeap
      { m.heap.toHeap with tables, finalizing := false }).collected, v) := by
    simp only [collect, swept]
    rfl
  have left : ((m.rested.withHeap
      { m.heap.toHeap with tables, finalizing := false }).collected).heap.marked = [] := unmarked
  refine ⟨_, ?_, by simp only [release, Conversing.bind_apply, ends, left]; rfl⟩
  rfl

namespace Context

variable (c : Context) (h : Host)

/-- What is said first when a context is thrown away. -/
def farewell : List LogLine := if c.state == some .suspended then [.abandoning c.id] else []

/-- Its machine behind its end, and what was told then. -/
def released : Machine × Conversation := (withFiles c.machine h.files).release c.conversation.quiet

/-- To throw a context away leaves a line if its script was suspended; the rest is what its
machine still does. -/
theorem drop_eq : c.drop h = ⟨(), ⟨h.next, (c.released h).1.heap.files⟩,
    c.farewell.map .line ++ (c.released h).2.reports.toList⟩ := by
  unfold drop release released farewell
  rcases ended : (withFiles c.machine h.files).release c.conversation.quiet with ⟨m, v⟩
  by_cases waits : c.state = some .suspended <;> simp [waits, ended]

/-- No number is taken. -/
@[simp] theorem next_drop : (c.drop h).host.next = h.next := by rw [drop_eq]

/-- Nothing is said besides but what callbacks say. -/
theorem lines_drop : ∃ calls, Report.lines (c.drop h).reports = c.farewell ++ calls ∧
    ∀ l ∈ calls, l.isOfCallback := by
  have silent : c.conversation.quiet.OnlyCallbacks := by
    simp [Conversation.OnlyCallbacks, Conversation.quiet]
  have calls := (respected_onlyCallbacks.release (withFiles c.machine h.files) _ _ ⟨rfl, silent⟩).2.2
  exact ⟨_, by rw [drop_eq, Report.lines_append, Report.lines_map_line]; rfl, calls⟩

/-- A context without tables that are to be finalized does nothing any more. -/
theorem drop_of_unmarked (unmarked : c.machine.heap.marked = []) :
    c.drop h = ⟨(), h, c.farewell.map .line⟩ := by
  have none_ : (withFiles c.machine h.files).heap.marked = [] := unmarked
  obtain ⟨m, files, ends⟩ := Machine.release_of_unmarked none_ c.conversation.quiet
  rw [drop_eq, released, ends]
  simp [files, withFiles, Conversation.quiet]

end Context

namespace Manager

variable (m : Manager) {s k : SessionId} {c d : Context}

/-! ## What is in a manager -/

/-- What was taken out is not there any more, and nothing else is missing. -/
theorem mem_erase : (k, c) ∈ (m.erase s).active ↔ k ≠ s ∧ (k, c) ∈ m.active := by
  simp [erase, and_comm]

/-- What was put in is there, in the place of what the session had before. -/
theorem mem_insert :
    (k, c) ∈ (m.insert s d).active ↔ (k = s ∧ c = d) ∨ k ≠ s ∧ (k, c) ∈ m.active := by
  rw [← mem_erase]
  simp [insert]

/-- What is found is there. -/
theorem mem_of_find? (h : m.find? s = some c) : (s, c) ∈ m.active := by
  obtain ⟨l₁, l₂, split, -⟩ := List.lookup_eq_some_iff.1 h
  simp [split]

theorem lookup_filter_ne (l : List (SessionId × Context)) (h : k ≠ s) :
    (l.filter fun p => p.1 != s).lookup k = l.lookup k := by
  induction l with
  | nil => rfl
  | cons p l ih =>
    obtain ⟨j, c⟩ := p
    by_cases hj : j = s
    · subst hj
      simp [List.lookup_cons, beq_eq_false_iff_ne.2 h, ih]
    · simp [List.lookup_cons, hj, ih]

/-- What was taken out is not found. -/
@[simp] theorem find?_erase_self : (m.erase s).find? s = none := by
  rw [find?, erase, List.lookup_eq_none_iff]
  intro p mem
  obtain ⟨-, other⟩ := List.mem_filter.1 mem
  exact bne_comm.trans other

/-- Other sessions are found as before. -/
theorem find?_erase_of_ne (h : k ≠ s) : (m.erase s).find? k = m.find? k :=
  lookup_filter_ne m.active h

/-- What was put in is found. -/
@[simp] theorem find?_insert_self : (m.insert s c).find? s = some c := by
  simp [find?, insert]

/-- Other sessions are found as before. -/
theorem find?_insert_of_ne (h : k ≠ s) : (m.insert s c).find? k = m.find? k := by
  rw [← find?_erase_of_ne m h]
  simp [find?, insert, List.lookup_cons, beq_eq_false_iff_ne.2 h]

/-! ## Exits -/

/-- The exits of starting an interaction. -/
inductive Started (m : Manager) (s : SessionId) (e : EntityId) (script : Metadata) (h : Host) :
    Told (Except ExecutionFault (Option TaskState) × Manager) → Prop
  /-- The session takes part in another one. -/
  | busy (taken : m.isActive s = true) : Started m s e script h ⟨(.error (.busy s), m), h, []⟩
  /-- The script has no code. -/
  | mute (free : m.isActive s = false) (code : script.code = none) :
    Started m s e script h ⟨(.ok none, m), h, [.line (.noCode script.name e)]⟩
  /-- No context can be made. -/
  | unmade {f : ExecutionFault} {h' : Host} {rs : List Report} (free : m.isActive s = false)
    {code : Bytecode} (known : script.code = some code)
    (made : Context.create m.config s e h = ⟨.error f, h', rs⟩) :
    Started m s e script h ⟨(.error f, m), h', rs⟩
  /-- The context does not run the code. -/
  | unstarted {c d : Context} {h₁ h₂ : Host} {rs qs : List Report} (free : m.isActive s = false)
    {code : Bytecode} (known : script.code = some code)
    (made : Context.create m.config s e h = ⟨.ok c, h₁, rs⟩)
    (ran : c.run code h₁ = ⟨(false, d), h₂, qs⟩) :
    Started m s e script h ⟨(.error (.load e), m), (d.drop h₂).host,
      rs ++ (qs ++ (.line (.couldNotStart script.name e s) :: (d.drop h₂).reports))⟩
  /-- The script is over at once. -/
  | finished {c d : Context} {h₁ h₂ : Host} {rs qs : List Report} (free : m.isActive s = false)
    {code : Bytecode} (known : script.code = some code)
    (made : Context.create m.config s e h = ⟨.ok c, h₁, rs⟩)
    (ran : c.run code h₁ = ⟨(true, d), h₂, qs⟩) (isOver : d.isFinished = true) :
    Started m s e script h ⟨(.ok d.state, m), (d.drop h₂).host,
      rs ++ (qs ++ (.line (.finishedImmediately s e) :: (d.drop h₂).reports))⟩
  /-- The script waits. -/
  | opened {c d : Context} {h₁ h₂ : Host} {rs qs : List Report} (free : m.isActive s = false)
    {code : Bytecode} (known : script.code = some code)
    (made : Context.create m.config s e h = ⟨.ok c, h₁, rs⟩)
    (ran : c.run code h₁ = ⟨(true, d), h₂, qs⟩) (isOver : d.isFinished = false) :
    Started m s e script h
      ⟨(.ok d.state, m.insert s d), h₂, rs ++ (qs ++ [.line (.startedTalking s script.name e)])⟩

/-- Starting an interaction ends in one of these ways. -/
theorem started (e : EntityId) (script : Metadata) (h : Host) :
    Started m s e script h (m.start s e script h) := by
  unfold start
  cases taken : m.isActive s with
  | true => exact .busy taken
  | false =>
    cases known : script.code with
    | none => exact .mute taken known
    | some code =>
      cases made : Context.create m.config s e h with
      | mk result h₁ rs =>
        cases result with
        | error f => simpa [made] using Started.unmade taken known made
        | ok c =>
          cases ran : c.run code h₁ with
          | mk answer h₂ qs =>
            obtain ⟨accepted, d⟩ := answer
            cases accepted with
            | false => simpa [made, ran] using Started.unstarted taken known made ran
            | true =>
              cases isOver : d.isFinished with
              | true => simpa [made, ran, isOver] using Started.finished taken known made ran isOver
              | false => simpa [made, ran, isOver] using Started.opened taken known made ran isOver

/-- If the script is over at once, its context is thrown away. -/
theorem start_of_finished {e : EntityId} {script : Metadata} {code : Bytecode} {h h₁ h₂ : Host}
    {rs qs : List Report} (free : m.isActive s = false) (known : script.code = some code)
    (made : Context.create m.config s e h = ⟨.ok c, h₁, rs⟩)
    (ran : c.run code h₁ = ⟨(true, d), h₂, qs⟩) (isOver : d.isFinished = true) :
    m.start s e script h = ⟨(.ok d.state, m), (d.drop h₂).host,
      rs ++ (qs ++ (.line (.finishedImmediately s e) :: (d.drop h₂).reports))⟩ := by
  simp [start, free, known, made, ran, isOver]

/-- The exits of letting an interaction go on. -/
inductive Resumed (m : Manager) (s : SessionId) (h : Host) :
    Told (Option TaskState × Manager) → Prop
  /-- There is none. -/
  | absent (free : m.find? s = none) : Resumed m s h ⟨(none, m), h, []⟩
  /-- Its script is over. -/
  | ended {c d : Context} {st : Option TaskState} {h' : Host} {rs : List Report}
    (found : m.find? s = some c) (went : c.resume h = ⟨(st, d), h', rs⟩)
    (isOver : d.isFinished = true) :
    Resumed m s h ⟨(st, m.erase s), (d.drop h').host,
      rs ++ (.line (.interactionEnded s st) :: (d.drop h').reports)⟩
  /-- Its script waits again. -/
  | waiting {c d : Context} {st : Option TaskState} {h' : Host} {rs : List Report}
    (found : m.find? s = some c) (went : c.resume h = ⟨(st, d), h', rs⟩)
    (isOver : d.isFinished = false) :
    Resumed m s h ⟨(st, m.insert s d), h', rs⟩

/-- Letting an interaction go on ends in one of these ways. -/
theorem resumed (s : SessionId) (h : Host) : Resumed m s h (m.resume s h) := by
  unfold resume
  cases found : m.find? s with
  | none => exact .absent found
  | some c =>
    cases went : c.resume h with
    | mk answer h' rs =>
      obtain ⟨st, d⟩ := answer
      cases isOver : d.isFinished with
      | true => simpa [went, isOver] using Resumed.ended found went isOver
      | false => simpa [went, isOver] using Resumed.waiting found went isOver

/-- The exits of ending an interaction. -/
inductive Abandoned (m : Manager) (s : SessionId) (h : Host) : Told (Bool × Manager) → Prop
  /-- There is none. -/
  | absent (free : m.find? s = none) : Abandoned m s h ⟨(false, m), h, []⟩
  /-- Its context is dropped. -/
  | ended {c : Context} (found : m.find? s = some c) :
    Abandoned m s h
      ⟨(true, m.erase s), (c.drop h).host, (c.drop h).reports ++ [.line (.interactionAbandoned s)]⟩

/-- Ending an interaction ends in one of these ways. -/
theorem abandoned (s : SessionId) (h : Host) : Abandoned m s h (m.abandon s h) := by
  unfold abandon
  cases found : m.find? s with
  | none => exact .absent found
  | some c => simpa using Abandoned.ended found

end Manager

end NpcDialog
