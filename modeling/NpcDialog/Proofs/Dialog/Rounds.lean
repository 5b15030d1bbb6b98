import NpcDialog.Proofs.Dialog.Furnishing
import NpcDialog.Proofs.Dialog.Tasks
import NpcDialog.Proofs.Machine.Parked
import NpcDialog.Proofs.Machine.Suspender
import NpcDialog.Script.Extraction

/-!
# A script that waits for ever

The number of suspensions is one of 32 bits, so it says how often a script was suspended
only while that is not too often.  The script here suspends itself in each round of a
loop, and nothing that a round does is different in the next one.  So it is suspended by
each step, however many there are, and behind 2³² of them the number is zero again.

* `Machine.InRound` — a coroutine is suspended in a round of the loop.
* `Machine.InRound.resumed` — a turn takes it to the next round.
* `Context.Looping` — a context whose script is in the loop.
* `Context.Looping.resumes` — it is suspended again, however often it goes on.
-/

namespace NpcDialog

open Lua

/-! ## Rounds of the loop -/

/-- The instructions of a function that suspends its coroutine in each round of a loop. -/
def roundCode : Array Instr := #[
  .getCapturedField 0 0 0, .getField 0 0 1, .move 1 0, .call 1 (some 0) (some 0), .jump 2,
  .return 1 (some 0) false]

namespace Lua.Machine

/-- A call without arguments of a built-in function that lies in a slot. -/
theorem callSlots_builtin {m : Machine} {start : Nat} {b : Builtin}
    (callee : m.slot start = .builtin b) (deliver : Deliver) :
    m.callSlots start 0 deliver =
      { m with control := .call (.builtin b) #[] start deliver false } := by
  rw [callSlots, callee]
  simp only [valuesFrom_zero]

/-- The instruction that calls what suspends the coroutine. -/
theorem step_suspending {m : Machine} {a : Activation} (frames : m.frames = [.lua a])
    (control : m.control = .run) (memory : m.heap.limit = 0 ∨ m.heap.used ≤ m.heap.limit)
    (code : a.body.code[m.pc]? = some (.call 1 (some 0) (some 0))) (registers : a.body.registers = 2)
    (callee : m.slot (a.base + 1) = .builtin .coYield) (run : Runner) (v : Conversation) :
    m.step run v = (.next { m with
      pc := m.pc + 1, top := a.base + 2
      control := .call (.builtin .coYield) #[] (a.base + 1) (.slots (a.base + 1) (some 0)) false }, v) := by
  have there : ({ m with pc := m.pc + 1 }.settle a).slot (a.base + 1) = .builtin .coYield := callee
  have called := callSlots_builtin there (.slots (a.base + 1) (some 0))
  rw [settle, registers] at called
  rw [step_execute frames control memory code run v, ← called, ← registers]
  rfl

/-- A coroutine is suspended in a round of the loop, which it makes in the call `a`.  There
is no bound for the memory, so that nothing is counted anew before it is suspended again. -/
structure InRound (m : Machine) (id : Nat) (t : Thread) (a : Activation) : Prop where
  apart : id ≠ m.current
  unlimited : m.heap.limit = 0
  found : m.threads[id]? = some t
  status : t.status = .suspended (.slots (a.base + 1) (some 0))
  frames : t.frames = [.lua a]
  code : a.body.code = roundCode
  registers : a.body.registers = 2
  pc : a.pc = 4
  wait : t.stack.getD a.base .nil = .builtin .coYield
  room : a.base + 1 < t.stack.size

/-- The coroutine at the beginning of its turn, in the round of the call `a`. -/
structure AtTurn (m : Machine) (id : Nat) (t : Thread) (a : Activation) (inner : Machine) : Prop where
  current : inner.current = id
  threads : inner.threads = ((m.outside.park .active).unpark id).threads
  heap : inner.heap = m.heap
  control : inner.control = .give #[] (.slots (a.base + 1) (some 0))
  held : inner.held = 0
  pc : inner.pc = 4
  frames : inner.frames = [.lua a]
  stack : inner.stack = t.stack

/-- The coroutine when it calls again what suspends it, in the round of the call `a`. -/
structure AtCall (m : Machine) (id : Nat) (t : Thread) (a : Activation) (inner : Machine) : Prop where
  current : inner.current = id
  threads : inner.threads = ((m.outside.park .active).unpark id).threads
  heap : inner.heap = m.heap
  control : inner.control = .call (.builtin .coYield) #[] (a.base + 1) (.slots (a.base + 1) (some 0)) false
  held : inner.held = 0
  pc : inner.pc = 4
  frames : inner.frames = [.lua a]
  wait : inner.stack.getD a.base .nil = .builtin .coYield
  size : inner.stack.size = t.stack.size

namespace InRound

variable {m : Machine} {id : Nat} {t : Thread} {a : Activation} (h : m.InRound id t a)
include h

/-- The coroutine has its turn, and takes up the results of the call in which it waited. -/
theorem enters : ∃ inner, m.outside.entered id #[] = .ok inner ∧ m.AtTurn id t a inner := by
  have found : (m.outside.park .active).threads[id]? = some t := by
    rw [threads_park]
    exact (Array.getElem?_setIfInBounds_ne (Ne.symm h.apart)).trans h.found
  have begun := entered_suspended (m := m.outside) h.apart (by show 0 < depthBound; decide) h.found
    h.status #[]
  refine ⟨_, begun, ?_, rfl, ?_, rfl, rfl, ?_, ?_, ?_⟩
  · show ((m.outside.park .active).unpark id).current = _
    rw [unpark_eq found, h.frames]
    rfl
  · show ((m.outside.park .active).unpark id).heap = _
    rw [unpark_eq found, h.frames]
    rfl
  · show ((m.outside.park .active).unpark id).pc = _
    rw [unpark_eq found, h.frames]
    exact h.pc
  · show ((m.outside.park .active).unpark id).frames = _
    rw [unpark_eq found, h.frames]
    rfl
  · show ((m.outside.park .active).unpark id).stack = _
    rw [unpark_eq found, h.frames]
    rfl

/-- Four steps behind the beginning of its turn the coroutine calls again what suspends
it: it takes up no results, jumps back, loads the function and calls it. -/
theorem leads (run : Runner) (v : Conversation) : ∃ inner called,
    m.outside.entered id #[] = .ok inner ∧ Leads run 4 inner v called v ∧ m.AtCall id t a called := by
  obtain ⟨inner, begun, turn⟩ := h.enters
  have unlimited (m' : Machine) (same : m'.heap = m.heap) :
      m'.heap.limit = 0 ∨ m'.heap.used ≤ m'.heap.limit := .inl (same ▸ h.unlimited)
  let given : Machine := { inner with control := .run }
  let back : Machine := { given with pc := 2 }
  let loaded : Machine := { back with pc := 3 }.setSlot (a.base + 1) (.builtin .coYield)
  let called : Machine := { loaded with
    pc := 4, top := a.base + 2
    control := .call (.builtin .coYield) #[] (a.base + 1) (.slots (a.base + 1) (some 0)) false }
  have gives : inner.step run v = (.next given, v) := by
    have room : a.base + 1 + 0 ≤ inner.stack.size := by rw [turn.stack]; exact Nat.le_of_lt h.room
    rw [step, turn.control]
    show (give { inner with control := .run } #[] (.slots (a.base + 1) (some 0)), v) = _
    simp [give, withSlots, putFrom, clearFrom, room, given]
  have jumps : given.step run v = (.next back, v) := by
    have code : a.body.code[given.pc]? = some (.jump 2) := by
      rw [h.code, show given.pc = 4 from turn.pc]
      rfl
    rw [step_execute (m := given) turn.frames rfl (unlimited given turn.heap) code run v]
    rfl
  have loads : back.step run v = (.next loaded, v) := by
    have code : a.body.code[back.pc]? = some (.move 1 0) := by
      rw [h.code]
      rfl
    have value : back.slot a.base = .builtin .coYield := by
      show inner.stack.getD a.base .nil = _
      rw [turn.stack]
      exact h.wait
    rw [step_execute (m := back) turn.frames rfl (unlimited back turn.heap) code run v]
    show (Step.next (setSlot _ (a.base + 1) (back.slot a.base)), v) = _
    rw [value]
  have calls : loaded.step run v = (.next called, v) := by
    have code : a.body.code[loaded.pc]? = some (.call 1 (some 0) (some 0)) := by
      rw [h.code]
      rfl
    have room : a.base + 1 < back.stack.size := by
      rw [show back.stack = t.stack from turn.stack]
      exact h.room
    exact step_suspending (m := loaded) turn.frames rfl (unlimited loaded turn.heap) code h.registers
      (slot_setSlot { back with pc := 3 } room _) run v
  refine ⟨inner, called, begun, .step gives (.step jumps (.step loads (.one calls))), ?_⟩
  refine ⟨turn.current, turn.threads, turn.heap, rfl, turn.held, rfl, turn.frames, ?_, ?_⟩
  · show (inner.stack.setIfInBounds (a.base + 1) _).getD a.base .nil = _
    rw [turn.stack, Array.getD_eq_getD_getElem?, Array.getElem?_setIfInBounds_ne (by omega),
      ← Array.getD_eq_getD_getElem?]
    exact h.wait
  · show (inner.stack.setIfInBounds _ _).size = _
    rw [Array.size_setIfInBounds, turn.stack]

/-- A turn takes the coroutine to the next round, and nobody hears of it. -/
theorem resumed (v : Conversation) : ∃ m' t',
    m.resumeThread id #[] v = ((.ok #[], m'), v) ∧ m'.InRound id t' a := by
  obtain ⟨inner, called, begun, leads, atCall⟩ := h.leads (runWithin (levels - 1)) v
  let deliver : Deliver := .slots (a.base + 1) (some 0)
  let left : Machine := { called with control := .run }
  have ran : run inner v = ((.suspended #[] deliver, left), v) := by
    have suspends := step_yield (runWithin (levels - 1)) v atCall.control atCall.held
    have budget : stepBudget = 4 + ((stepBudget - 5) + 1) := rfl
    show loop (runWithin (levels - 1)) stepBudget inner v = _
    rw [budget, leads.loop_eq, loop, Conversing.bind_apply, suspends]
    rfl
  have resumes : m.resumeThread id #[] v =
      (m.outside.handBack (.suspended #[] deliver) left, v) := by
    show resume run id #[] m.outside v = _
    rw [resume, begun]
    dsimp only
    rw [Conversing.bind_apply, ran]
    rfl
  let next : Machine := (m.outside.handBack (.suspended #[] deliver) left).2
  have current : next.current = m.current := current_unpark _ _
  have heap : next.heap = m.heap := (heap_unpark _ _).trans atCall.heap
  have size : id < left.threads.size := by
    have there := (Array.getElem?_eq_some_iff.1 h.found).1
    rw [show left.threads = _ from atCall.threads, size_unpark, size_park]
    exact there
  have found : next.threads[id]? = some ⟨.suspended deliver, left.stack, left.top, left.heldFrames,
      left.cells, left.closers, left.handler⟩ := by
    show (m.outside.handBack (.suspended #[] deliver) left).2.threads[id]? = _
    rw [threads_handBack, threads_unpark, threads_park]
    refine (Array.getElem?_setIfInBounds_ne (Ne.symm h.apart)).trans ?_
    rw [show left.current = id from atCall.current]
    exact Array.getElem?_setIfInBounds_self_of_lt size
  have frames : left.heldFrames = [.lua a] := by
    have place : left.pc = a.pc := atCall.pc.trans h.pc.symm
    rw [heldFrames, show left.frames = _ from atCall.frames]
    show [Frame.lua { a with pc := left.pc }] = _
    rw [place]
  refine ⟨next, _, resumes, current ▸ h.apart, heap ▸ h.unlimited, found, rfl, frames, h.code,
    h.registers, h.pc, atCall.wait, ?_⟩
  show a.base + 1 < called.stack.size
  rw [atCall.size]
  exact h.room

end InRound
end Lua.Machine

/-! ## Contexts -/

namespace Context

/-- The script of a context is suspended in a round of the loop. -/
def Looping (c : Context) : Prop :=
  ∃ task t a, c.task = some task ∧ task.state = .suspended ∧ c.machine.InRound task.thread t a

variable {c : Context}

theorem Looping.isWaiting (looping : c.Looping) : c.isWaiting = true := by
  obtain ⟨task, t, a, known, waits, -⟩ := looping
  simp [Context.isWaiting, Context.state, known, waits]

/-- A step takes the script to the next round. -/
theorem Looping.resume (looping : c.Looping) (h : Host) : (c.resume h).value.2.Looping := by
  obtain ⟨task, t, a, known, waits, round⟩ := looping
  have exit := c.resumed h
  generalize c.resume h = told at exit
  cases exit with
  | absent none_ =>
    rw [known] at none_
    cases none_
  | ignored task' known' idle =>
    obtain rfl := Option.some.inj (known.symm.trans known')
    exact absurd waits idle
  | stepped task' known' _ =>
    obtain rfl := Option.some.inj (known.symm.trans known')
    have before : (withFiles c.machine h.files).InRound task.thread t a := { round with }
    obtain ⟨m', t', turned, again⟩ := before.resumed c.conversation.quiet
    have open_ : m'.liveness task.thread = .suspended := by
      simp [Machine.liveness, again.apart, again.found, again.status]
    have turn_ : turn task.thread (withFiles c.machine h.files) c.conversation.quiet =
        ((.suspended, none, m'), c.conversation.quiet) := by
      rw [turn, Conversing.bind_apply, turned]
      show ((if m'.liveness task.thread == .suspended then TaskState.suspended else .completed,
        none, m'), c.conversation.quiet) = _
      rw [open_]
      rfl
    rw [step, Action.bind_apply, Action.files_apply, turn_]
    exact ⟨_, t', a, rfl, rfl, again⟩

/-- The script is suspended by each step, however often it goes on.  The induction is on
how often it does. -/
theorem Looping.resumes (looping : c.Looping) (n : Tally) (h : Host) (k : Nat) :
    (c.tally n (List.replicate k (h, .resume))).2.waits = n.waits + k := by
  induction k generalizing c n with
  | zero => rfl
  | succ k ih =>
    have again := looping.resume h
    let tallied := c.tallied n (.resumed (c.resume h).value.1) (c.resume h).value.2
    have counted : tallied.waits = n.waits + 1 := by
      simp [tallied, Context.tallied, looping.isWaiting, again.isWaiting]
    have rest : ((c.resume h).value.2.tally tallied (List.replicate k (h, .resume))).2.waits =
        n.waits + (k + 1) := by
      rw [ih again, counted, Nat.add_right_comm, Nat.add_assoc]
    exact rest

/-- So it was suspended once more often than it went on since it was started. -/
theorem Looping.waits_started {code : Bytecode} {h : Host} (started : (c.run code h).value.1 = true)
    (looping : (c.run code h).value.2.Looping) (k : Nat) :
    (c.tally .zero ((h, .run code) :: List.replicate k (h, .resume))).2.waits = k + 1 := by
  let first := c.tallied .zero (.ran (c.run code h).value.1) (c.run code h).value.2
  have once : first.waits = 1 := by
    show (c.tallied .zero (.ran (c.run code h).value.1) (c.run code h).value.2).waits = 1
    rw [started]
    show (c.run code h).value.2.isWaiting.toNat = 1
    rw [looping.isWaiting]
    rfl
  have rest := looping.resumes first h k
  rw [once, Nat.add_comm] at rest
  exact rest

/-- Is the script suspended in a round of the loop? -/
def isLooping (c : Context) : Bool :=
  match c.task with
  | none => false
  | some task =>
    match c.machine.threads[task.thread]? with
    | none => false
    | some t =>
      match t.status, t.frames with
      | .suspended (.slots start (some 0)), [.lua a] =>
        (match t.stack.getD a.base .nil with
          | .builtin .coYield => true
          | _ => false) &&
        decide (task.state = .suspended ∧ task.thread ≠ c.machine.current ∧ c.machine.heap.limit = 0 ∧
          start = a.base + 1 ∧ a.body.code = roundCode ∧ a.body.registers = 2 ∧ a.pc = 4 ∧
          a.base + 1 < t.stack.size)
      | _, _ => false

theorem looping_of_isLooping (h : c.isLooping = true) : c.Looping := by
  unfold isLooping at h
  split at h
  · cases h
  · next task known =>
    split at h
    · cases h
    · next t found =>
      split at h
      · next start a status frames =>
        obtain ⟨wait, rest⟩ := Bool.and_eq_true_iff.1 h
        obtain ⟨waits, apart, unlimited, rfl, code, registers, pc, room⟩ := of_decide_eq_true rest
        have wait : t.stack.getD a.base .nil = .builtin .coYield := by
          split at wait
          · assumption
          · cases wait
        exact ⟨task, t, a, known, waits, apart, unlimited, found, status, frames, code, registers,
          pc, wait, room⟩
      · cases h

end Context

/-! ## A script in the loop -/

/-- A script that is suspended in each round of a loop. -/
def waitingForEver : String :=
  "function script()\n  local wait = coroutine.yield\n  while true do wait() end\nend\n"

/-- The code of its entry function. -/
def waitingCode : Option Bytecode :=
  (Metadata.extract .default "ana.lua" waitingForEver (.start .empty)).value.toOption.bind
    Metadata.code

/-- Its first step takes it into the loop. -/
theorem waitingCode_loops :
    (do
      let code ← waitingCode
      let c ← (Context.create .default ⟨1⟩ ⟨2⟩ (.start .empty)).value.toOption
      return ((c.run code (.start .empty)).value.1, (c.run code (.start .empty)).value.2.isLooping)) =
      some (true, true) := by
  rw [Context.create_eq_furnish]
  decide +kernel

/-- A function with a long text among its constants. -/
def longWinded : FunctionCode where
  params := 0
  isVararg := false
  registers := 2
  code := #[.return 0 (some 0) false]
  consts := #[.str (.ofList (List.replicate 60 120))]
  captures := #[⟨false, 0⟩]
  notes := ⟨none, 0, #[], #[], #[]⟩
  children := []

/-- A context with memory for itself has none for a function with a long text. -/
theorem longWinded_unloadable :
    (do
      let c ← (Context.create ⟨true, some 33100⟩ ⟨1⟩ ⟨2⟩ (.start .empty)).value.toOption
      return (c.state, (c.run ⟨longWinded.archive⟩ (.start .empty)).value.1,
        (Archive.read longWinded.archive).toOption.isSome)) = some (none, false, true) := by
  rw [Context.create_eq_furnish]
  decide +kernel

/-- The number of suspensions of a script in the loop is zero again when there were too
many for 32 bits. -/
theorem Context.Counted.wraps {c : Context} (counted : c.Counted .zero) {code : Bytecode} {h : Host}
    (started : (c.run code h).value.1 = true) (looping : (c.run code h).value.2.Looping) {k : Nat}
    (many : k + 1 = 2 ^ 32) :
    let requests := (h, .run code) :: List.replicate k (h, .resume)
    (c.tally .zero requests).2.waits = 2 ^ 32 ∧ (c.tally .zero requests).1.suspensions = 0 := by
  intro requests
  have waits : (c.tally .zero requests).2.waits = 2 ^ 32 :=
    (looping.waits_started started k).trans many
  refine ⟨waits, ?_⟩
  rw [(counted.tally requests).suspensions_eq, waits, Nat.mod_self]

/-- Two limits.  A script that is suspended 2³² times was suspended zero times as far as
the context tells.  And code that is well-formed is not run, although no script waits,
where there is too little memory to load it. -/
theorem count_and_memory_limited :
    (∃ (code : Bytecode) (c : Context) (k : Nat),
      (Context.create .default ⟨1⟩ ⟨2⟩ (.start .empty)).value = .ok c ∧
      let requests := (.start .empty, .run code) :: List.replicate k (.start .empty, .resume)
      (c.tally .zero requests).2.waits = 2 ^ 32 ∧ (c.tally .zero requests).1.suspensions = 0) ∧
    ∃ (code : Bytecode) (c : Context),
      (Context.create ⟨true, some 33100⟩ ⟨1⟩ ⟨2⟩ (.start .empty)).value = .ok c ∧
      (∃ chunk, Archive.read code.bytes = .ok chunk) ∧ c.state ≠ some .suspended ∧
      (c.run code (.start .empty)).value.1 = false := by
  constructor
  · obtain ⟨code, -, told⟩ := Option.bind_eq_some_iff.1 waitingCode_loops
    obtain ⟨c, made, told⟩ := Option.bind_eq_some_iff.1 told
    have told := Option.some.inj told
    rw [Prod.mk.injEq] at told
    obtain ⟨started, loops⟩ := told
    have made := ok_of_toOption made
    obtain ⟨k, many⟩ : ∃ k, k + 1 = 2 ^ 32 := ⟨2 ^ 32 - 1, by norm_num⟩
    exact ⟨code, c, k, made, (Context.counted_create made).wraps started
      (Context.looping_of_isLooping loops) many⟩
  · obtain ⟨c, made, told⟩ := Option.bind_eq_some_iff.1 longWinded_unloadable
    have told := Option.some.inj told
    rw [Prod.mk.injEq, Prod.mk.injEq] at told
    obtain ⟨fresh, refused, wellFormed⟩ := told
    obtain ⟨chunk, read⟩ := Option.isSome_iff_exists.1 wellFormed
    have read : Archive.read (Bytecode.mk longWinded.archive).bytes = .ok chunk := ok_of_toOption read
    exact ⟨⟨longWinded.archive⟩, c, ok_of_toOption made, ⟨chunk, read⟩, by rw [fresh]; simp, refused⟩

end NpcDialog
