import Mathlib
import NpcDialog.Proofs.Dialog.Rejections
import NpcDialog.Proofs.Machine.Turns

/-!
# The life of a script

A context counts how often its script was suspended, and the machine keeps a record
of the turns that a coroutine had.  Here both are compared with what the context was
asked for and what it answered: a script's coroutine has one turn when the script is
started and one more each time it is let go on while it waits, and no others; and
all of these turns ended with the script suspended but the last one of a script that
is over.

* `Tally` — the accepted requests, and the steps of the latest script.
* `Context.Counted` — how a context goes with a tally.
* `Context.Counted.serve` — each request keeps it so.
* `task_lifecycle` — the result.
-/

namespace NpcDialog

open Lua Lua.Machine

/-! ## Machines between calls -/

namespace Lua.Machine

/-- There is a running coroutine, and only coroutines that there are had turns. -/
structure Settled (m : Machine) : Prop where
  current : m.current < m.threads.size
  known : m.TurnsKnown

theorem Spares.settled {m m' : Machine} (h : Spares m m') (settled : m.Settled) : m'.Settled where
  current := by
    rw [h.current]
    exact Nat.lt_of_lt_of_le settled.current h.threads
  known := h.known settled.known

theorem settled_fresh (files : FileTree) : (fresh files).Settled where
  current := Nat.one_pos
  known := fun _ mem => absurd mem List.not_mem_nil

theorem seat_loadChunk (m : Machine) (c : Chunk) : (m.loadChunk c).2.seat = m.seat := rfl

theorem seat_setGlobal (m : Machine) (name : String) (v : Value) :
    (m.setGlobal name v).seat = m.seat := rfl

theorem Settled.of_seat {m m' : Machine} (h : m.Settled) (seat : m'.seat = m.seat) : m'.Settled :=
  (Spares.of_seat seat).settled h

theorem Settled.rested {m : Machine} (h : m.Settled) : m.rested.Settled := ⟨h.current, h.known⟩

theorem Settled.setGlobal {m : Machine} (h : m.Settled) (name : String) (v : Value) :
    (m.setGlobal name v).Settled := h.of_seat (seat_setGlobal m name v)

theorem Settled.resultsOf {m : Machine} (h : m.Settled) (name text : String)
    (args : Array Value) : (m.resultsOf name text args).2.Settled := by
  unfold Machine.resultsOf
  cases Chunk.compile (Bytes.ofText name) (Bytes.ofText text) compileRoom with
  | error e => exact h
  | ok chunk =>
    have placed : (m.loadChunk chunk).2.Settled := h.of_seat (seat_loadChunk m chunk)
    have called := bracketed_spares.callMain (m.loadChunk chunk).1 args (m.loadChunk chunk).2 .empty
    have after : ((m.loadChunk chunk).2.callMain (m.loadChunk chunk).1 args).alone.2.Settled :=
      called.settled placed.rested
    dsimp only
    generalize ((m.loadChunk chunk).2.callMain (m.loadChunk chunk).1 args).alone = answer at after
    obtain ⟨result, m'⟩ := answer
    cases result <;> exact after

/-- The induction is on the globals that are set. -/
theorem Settled.setGlobals {m : Machine} (h : m.Settled) (globals : List (String × Value)) :
    (globals.foldl (fun m (name, v) => m.setGlobal name v) m).Settled := by
  induction globals generalizing m with
  | nil => exact h
  | cons x rest ih => exact ih (h.setGlobal x.1 x.2)

theorem Settled.withTextLoaders {m : Machine} (h : m.Settled) : m.withTextLoaders.Settled := by
  unfold Machine.withTextLoaders
  exact (h.resultsOf _ _ _).setGlobals _

theorem Settled.withCallback {m : Machine} (h : m.Settled) (c : Callback) :
    (m.withCallback c).Settled := by
  unfold Machine.withCallback
  split
  · exact (h.resultsOf _ _ _).setGlobal _ _
  · exact h.setGlobal _ _

/-- The induction is on the callbacks. -/
theorem Settled.withCallbacks {m : Machine} (h : m.Settled) : m.withCallbacks.Settled := by
  unfold Machine.withCallbacks
  induction Callback.all generalizing m with
  | nil => exact h
  | cons c cs ih => exact ih (h.withCallback c)

/-- The induction is on the handles. -/
theorem Settled.bindHandles {m : Machine} (h : m.Settled) : m.bindHandles.Settled := by
  unfold Machine.bindHandles
  induction Handle.all generalizing m with
  | nil => exact h
  | cons x rest ih => exact ih (h.setGlobal _ _)

theorem settled_equipped (files : FileTree) : (equipped files).Settled := by
  unfold Machine.equipped
  exact (settled_fresh files).withTextLoaders.withCallbacks

theorem Settled.limited {m : Machine} (h : m.Settled) (limit : Option Nat) :
    (m.limited limit).Settled := ⟨h.current, h.known⟩

theorem settled_prepare {config : Config} {files : FileTree} {m : Machine}
    (made : prepare config files = .ok m) : m.Settled := by
  have limited := (settled_equipped files).limited config.memoryLimit
  unfold Machine.prepare at made
  dsimp only at made
  generalize (equipped files).limited config.memoryLimit = m₀ at made limited
  cases full : m₀.isOverfull with
  | true =>
    rw [full, if_pos rfl] at made
    cases made
  | false =>
    rw [full, if_neg Bool.false_ne_true] at made
    cases made
    exact limited

/-! ## Machines without a bound for the memory -/

theorem limit_setGlobal (m : Machine) (name : String) (v : Value) :
    (m.setGlobal name v).heap.limit = m.heap.limit := by
  unfold Machine.setGlobal Lua.Heap.rawSetStr Lua.Heap.rawSetNormal
  dsimp only
  split <;> rfl

/-- The induction is on the handles. -/
theorem limit_bindHandles (m : Machine) : m.bindHandles.heap.limit = m.heap.limit := by
  unfold Machine.bindHandles
  induction Handle.all generalizing m with
  | nil => rfl
  | cons x rest ih => exact (ih _).trans (limit_setGlobal m _ _)

theorem isOverfull_of_unlimited {m : Machine} (unlimited : m.heap.limit = 0) :
    m.isOverfull = false := by
  simp [isOverfull, unlimited]

theorem prepare_of_unlimited {config : Config} (unlimited : config.memoryLimit = none)
    (files : FileTree) : ∃ m, prepare config files = .ok m ∧ m.heap.limit = 0 := by
  unfold Machine.prepare
  dsimp only
  rw [unlimited]
  generalize equipped files = m₀
  have room : (m₀.limited none).isOverfull = false := isOverfull_of_unlimited rfl
  rw [room, if_neg Bool.false_ne_true]
  exact ⟨_, rfl, rfl⟩

end Lua.Machine

/-- A context can be made if there is no bound for the memory. -/
theorem Context.create_of_unlimited {config : Config} (unlimited : config.memoryLimit = none)
    (s : SessionId) (e : EntityId) (h : Host) : ∃ c, (create config s e h).value = .ok c := by
  obtain ⟨m, prepared, limit⟩ := prepare_of_unlimited unlimited h.files
  have room : m.bindHandles.isOverfull = false :=
    isOverfull_of_unlimited ((limit_bindHandles m).trans limit)
  rw [create, Action.bind_apply, Action.files_apply]
  simp [prepared, room]

/-! ## Steps -/

/-- Showing a fault changes nothing, or it keeps what runs keep. -/
theorem Lua.Machine.Bracketed.failureOf_or {R : Machine → Machine → Prop} (b : Bracketed R)
    (f : Fault) (m : Machine) :
    Conversing.Ensures (fun answer => answer.2 = m ∨ R m.rested answer.2) (Context.failureOf f m) := by
  unfold Context.failureOf
  split
  · exact .pure (.inl rfl)
  · split
    · exact .pure (.inl rfl)
    · refine .bind (b.callFrom m _ _) fun answer kept => ?_
      obtain ⟨result, m'⟩ := answer
      cases result with
      | error e => exact .pure (.inr kept)
      | ok vs =>
        dsimp only
        split <;> exact .pure (.inr kept)

theorem Lua.Machine.Bracketed.failureOf {R : Machine → Machine → Prop} (b : Bracketed R) (f : Fault)
    (m : Machine) :
    Conversing.Ensures (fun answer => R m.rested answer.2.rested) (Context.failureOf f m) := by
  intro v
  rcases b.failureOf_or f m v with same | kept
  · rw [same]
    exact b.refl m.rested
  · exact b.rested kept

namespace Context

/-- What a turn does that was a coroutine's own: it is on record once more, and the
script waits only if the coroutine does. -/
structure Turned (thread : Nat) (m : Machine) (answer : TaskState × Option Failure × Machine) :
    Prop where
  settled : answer.2.2.Settled
  turns : answer.2.2.turns.count thread = m.turns.count thread + 1
  waits : answer.1 = .suspended → answer.2.2.liveness thread = .suspended

theorem turned {m : Machine} {thread : Nat} (settled : m.Settled)
    (waits : m.liveness thread = .suspended) :
    Conversing.Ensures (Turned thread m) (turn thread m) := by
  refine .bind (turnTaken_resumeThread waits #[]) fun answer taken => ?_
  obtain ⟨result, m'⟩ := answer
  have after : m'.Settled := by
    refine ⟨?_, taken.known settled.known⟩
    rw [taken.current]
    exact Nat.lt_of_lt_of_le settled.current taken.threads
  cases result with
  | ok vs =>
    refine .pure ⟨after, taken.turns, fun suspended => ?_⟩
    by_cases waiting : m'.liveness thread = .suspended
    · exact waiting
    · simp [waiting] at suspended
  | error f =>
    have shut : m'.rested.Shut thread := taken.failed f rfl
    refine .bind (bracketed_spares.failureOf f m') fun answer spares => .pure ?_
    obtain ⟨e, m''⟩ := answer
    have shown : m''.rested.Settled := spares.settled after.rested
    refine ⟨⟨shown.current, shown.known⟩, ?_, nofun⟩
    calc m''.turns.count thread = m'.turns.count thread := spares.turns thread shut
      _ = m.turns.count thread + 1 := taken.turns

/-- What a step does to a script whose coroutine can be given a turn. -/
structure StepTaken (t : Task) (m : Machine) (st : TaskState) (c : Context) : Prop where
  task : c.task = some
    ⟨t.thread, st, if st == .suspended then t.suspensions + 1 else t.suspensions⟩
  state : st = .suspended ∨ st = .completed ∨ st = .failed
  settled : c.machine.Settled
  turns : c.machine.turns.count t.thread = m.turns.count t.thread + 1
  waits : st = .suspended → c.machine.liveness t.thread = .suspended

theorem stepTaken {c : Context} {t : Task} (settled : c.machine.Settled)
    (waits : c.machine.liveness t.thread = .suspended) (h : Host) :
    ∃ st, StepTaken t c.machine st (c.step t h).value := by
  have before : (withFiles c.machine h.files).Settled := ⟨settled.current, settled.known⟩
  have taken := turned before waits c.conversation.quiet
  have rests := turn_rests t.thread (withFiles c.machine h.files) c.conversation.quiet
  rw [step, Action.bind_apply, Action.files_apply]
  generalize turn t.thread (withFiles c.machine h.files) c.conversation.quiet = x at taken rests
  obtain ⟨⟨state, failure, m⟩, v⟩ := x
  exact ⟨state, rfl, rests.state, taken.settled, taken.turns, taken.waits⟩

end Context

/-! ## Tallies -/

/-- What is counted while a context is asked for one thing after the other. -/
structure Tally where
  /-- The scripts that were started. -/
  started : Nat
  /-- The steps of the latest one. -/
  steps : Nat
  /-- Those of them that ended with it suspended. -/
  waits : Nat

/-- Nothing was asked for yet. -/
def Tally.zero : Tally := ⟨0, 0, 0⟩

namespace Context

/-- Does the script wait? -/
def isWaiting (c : Context) : Bool := c.state == some .suspended

/-- The tally after one more request.  A request to run a script that is accepted
makes the first step of it, and a request to let it go on makes another one if it
waits. -/
def tallied (c : Context) (n : Tally) (answer : Answer) (after : Context) : Tally :=
  match answer with
  | .ran true => ⟨n.started + 1, 1, after.isWaiting.toNat⟩
  | .ran false => n
  | .resumed _ =>
    if c.isWaiting then ⟨n.started, n.steps + 1, n.waits + after.isWaiting.toNat⟩ else n

/-- A context and its tally after it was asked for one thing after the other.  In
between others may do to its host what they like. -/
def tally (c : Context) (n : Tally) : List (Host × Request) → Context × Tally
  | [] => (c, n)
  | (h, q) :: rest =>
    let told := c.serve q h
    tally told.value.2 (c.tallied n told.value.1 told.value.2) rest

/-- How a script goes with a tally. -/
structure TaskCounted (m : Machine) (t : Task) (n : Tally) : Prop where
  state : t.state = .suspended ∨ t.state = .completed ∨ t.state = .failed
  turns : m.turns.count t.thread = n.steps
  waits : t.state = .suspended → m.liveness t.thread = .suspended
  suspensions : t.suspensions.toNat = n.waits % 2 ^ 32
  steps : n.steps = n.waits + t.state.isTerminal.toNat

/-- How a context goes with a tally. -/
structure Counted (c : Context) (n : Tally) : Prop where
  settled : c.machine.Settled
  started : c.task = none ↔ n.started = 0
  unused : c.task = none → n.steps = 0 ∧ n.waits = 0
  task : ∀ t, c.task = some t → TaskCounted c.machine t n

variable {c : Context} {n : Tally}

/-- A script that has waited after each of its steps makes one more. -/
theorem Counted.of_step {m : Machine} {t : Task} {st : TaskState} {c' : Context}
    (taken : StepTaken t m st c') (turns : m.turns.count t.thread = n.waits)
    (suspensions : t.suspensions.toNat = n.waits % 2 ^ 32) {started : Nat} (some_ : started ≠ 0) :
    Counted c' ⟨started, n.waits + 1, n.waits + c'.isWaiting.toNat⟩ := by
  have task := taken.task
  have isState : c'.state = some st := by simp [Context.state, task]
  refine ⟨taken.settled, ?_, ?_, ?_⟩
  · simp [task, some_]
  · simp [task]
  · intro t' found
    obtain rfl := Option.some.inj (task.symm.trans found)
    refine ⟨taken.state, ?_, taken.waits, ?_, ?_⟩
    · rw [taken.turns, turns]
    · have one : (1 : UInt32).toNat = 1 := rfl
      rcases taken.state with rfl | rfl | rfl
      · simp only [isWaiting, isState, beq_self_eq_true, if_true, Bool.toNat_true,
          UInt32.toNat_add, suspensions, one]
        omega
      · have ended : c'.isWaiting = false := by simp [isWaiting, isState]
        simpa [ended] using suspensions
      · have ended : c'.isWaiting = false := by simp [isWaiting, isState]
        simpa [ended] using suspensions
    · rcases taken.state with rfl | rfl | rfl <;> simp [isWaiting, isState, TaskState.isTerminal]

/-- A new coroutine can be given a turn, and had none. -/
theorem newThread_open {m : Machine} (settled : m.Settled) (f : Value) :
    (m.newThread f).2.Settled ∧ (m.newThread f).2.liveness (m.newThread f).1 = .suspended ∧
      (m.newThread f).2.turns.count (m.newThread f).1 = 0 := by
  refine ⟨(bracketed_spares.newThread m f).settled settled, ?_, ?_⟩
  · have other : m.threads.size ≠ m.current := Nat.ne_of_gt settled.current
    simp [newThread, liveness, other, Thread.empty]
  · refine List.count_eq_zero.2 fun mem => ?_
    exact absurd (settled.known _ mem) (Nat.lt_irrefl _)

/-- There is memory for a function made of a chunk, and for a coroutine that runs it. -/
def HasRoom (m : Machine) (chunk : Chunk) : Prop :=
  (m.loadChunk chunk).2.isOverfull = false ∧
    ((m.loadChunk chunk).2.charged? Machine.threadCost).isSome = true

/-- Without a bound for the memory there is. -/
theorem hasRoom_of_unlimited {m : Machine} {chunk : Chunk}
    (unlimited : (m.loadChunk chunk).2.heap.limit = 0) : HasRoom m chunk :=
  ⟨isOverfull_of_unlimited unlimited, by simp [charged?, unlimited]⟩

/-- Whether a script can be started depends on its code and on the memory. -/
theorem launch_isOk (code : Bytecode) (m : Machine) :
    (∃ thread m', launch code m = (.ok thread, m')) ↔
      ∃ chunk, Lua.Archive.read code.bytes = .ok chunk ∧ HasRoom m chunk := by
  constructor
  · rintro ⟨thread, m', launched⟩
    obtain ⟨chunk, read, full, room, -⟩ := launch_eq_ok.1 launched
    exact ⟨chunk, read, full, room⟩
  · rintro ⟨chunk, read, full, room⟩
    exact ⟨_, _, launch_eq_ok.2 ⟨chunk, read, full, room, rfl⟩⟩

namespace Counted

theorem state (counted : Counted c n) : c.state = none ∨ c.state = some .suspended ∨
    c.state = some .completed ∨ c.state = some .failed := by
  cases found : c.task with
  | none => exact .inl (by simp [Context.state, found])
  | some t =>
    have isState : c.state = some t.state := by simp [Context.state, found]
    rcases (counted.task t found).state with h | h | h
    · exact .inr (.inl (by rw [isState, h]))
    · exact .inr (.inr (.inl (by rw [isState, h])))
    · exact .inr (.inr (.inr (by rw [isState, h])))

/-- Nothing is still to go on just if the script does not wait. -/
theorem idle_iff (counted : Counted c n) :
    c.state.filter (fun s => !s.isTerminal) = none ↔ c.state ≠ some .suspended := by
  rcases counted.state with h | h | h | h <;> simp [h, TaskState.isTerminal]

/-- A request to run a script is accepted just if no other one waits and the code can
be loaded. -/
theorem run_accepted (counted : Counted c n) (code : Bytecode) (h : Host) :
    (c.run code h).value.1 = true ↔
      c.state ≠ some .suspended ∧ ∃ chunk, Lua.Archive.read code.bytes = .ok chunk ∧
        HasRoom c.machine chunk := by
  rw [← counted.idle_iff, ← launch_isOk]
  have exit := c.ran code h
  generalize c.run code h = told at exit
  cases exit with
  | refused st state waits => simp [state, waits]
  | unstarted f m idle launched => simp [launched]
  | started m t idle launched task => simp [idle, launched]

/-- A script that was started: its coroutine is a new one and had one turn. -/
theorem run_started (counted : Counted c n) {code : Bytecode} {h : Host}
    (accepted : (c.run code h).value.1 = true) :
    Counted (c.run code h).value.2 ⟨n.started + 1, 1, (c.run code h).value.2.isWaiting.toNat⟩ ∧
      ∃ t, (c.run code h).value.2.task = some t ∧ c.machine.threads.size ≤ t.thread := by
  have exit := c.ran code h
  generalize c.run code h = told at exit accepted
  cases exit with
  | refused st state waits => cases accepted
  | unstarted f m idle launched => cases accepted
  | started m t idle launched task =>
    obtain ⟨chunk, -, -, -, made⟩ := launch_eq_ok.1 launched
    have seat := seat_loadChunk c.machine chunk
    have settled₀ : (c.machine.loadChunk chunk).2.Settled := counted.settled.of_seat seat
    obtain ⟨settled, waits, unused⟩ := newThread_open settled₀ (c.machine.loadChunk chunk).1
    rw [made] at settled waits unused
    rw [task]
    obtain ⟨st, taken⟩ := stepTaken (c := { c with machine := m })
      (t := ⟨t.thread, .created, 0⟩) settled waits h
    refine ⟨?_, _, taken.task, ?_⟩
    · have first := Counted.of_step (n := .zero) taken unused rfl (Nat.succ_ne_zero n.started)
      simpa [Tally.zero] using first
    · have new : t.thread = c.machine.threads.size := (congrArg Prod.fst made).symm
      exact Nat.le_of_eq new.symm

theorem resume (counted : Counted c n) (h : Host) :
    Counted (c.resume h).value.2
      (c.tallied n (.resumed (c.resume h).value.1) (c.resume h).value.2) := by
  have exit := c.resumed h
  generalize c.resume h = told at exit
  cases exit with
  | absent none_ =>
    have idle : c.isWaiting = false := by simp [isWaiting, Context.state, none_]
    simpa [tallied, idle] using counted
  | ignored t task idle =>
    have idle : c.isWaiting = false := by simp [isWaiting, Context.state, task, idle]
    simpa [tallied, idle] using counted
  | stepped t task waits =>
    have waiting : c.isWaiting = true := by simp [isWaiting, Context.state, task, waits]
    have before := counted.task t task
    have steps : n.steps = n.waits := by
      have := before.steps
      simpa [waits, TaskState.isTerminal] using this
    have started : n.started ≠ 0 := by
      intro zero
      rw [counted.started.2 zero] at task
      cases task
    obtain ⟨st, taken⟩ := stepTaken counted.settled (before.waits waits) h
    have again := Counted.of_step taken (before.turns.trans steps) before.suspensions started
    simpa [tallied, waiting, steps] using again

/-- Each request keeps a context and its tally together. -/
theorem serve (counted : Counted c n) (q : Request) (h : Host) :
    Counted (c.serve q h).value.2
      (c.tallied n (c.serve q h).value.1 (c.serve q h).value.2) := by
  cases q with
  | resume => exact counted.resume h
  | run code =>
    show Counted (c.run code h).value.2
      (c.tallied n (.ran (c.run code h).value.1) (c.run code h).value.2)
    cases accepted : (c.run code h).value.1 with
    | true => exact (counted.run_started accepted).1
    | false =>
      have rejected : c.rejects h (.run code) = true := by simp [rejects, accepted]
      obtain ⟨⟨m, same⟩, -, -⟩ := c.serve_of_rejects h rejected
      have same : (c.run code h).value.2 = { c with machine := { c.machine with drift := m } } := same
      rw [same]
      refine ⟨counted.settled.of_seat rfl, counted.started, counted.unused, fun t task => ?_⟩
      have kept := counted.task t task
      exact ⟨kept.state, kept.turns, kept.waits, kept.suspensions, kept.steps⟩

/-- The induction is on the requests. -/
theorem tally (counted : Counted c n) (requests : List (Host × Request)) :
    Counted (c.tally n requests).1 (c.tally n requests).2 := by
  induction requests generalizing c n with
  | nil => exact counted
  | cons request rest ih =>
    obtain ⟨h, q⟩ := request
    exact ih (counted.serve q h)

end Counted

/-- A new context, which was asked for nothing yet. -/
theorem counted_create {config : Config} {s : SessionId} {e : EntityId} {h : Host}
    (made : (create config s e h).value = .ok c) : Counted c .zero := by
  have exit := created config s e h
  generalize create config s e h = told at exit made
  cases exit with
  | failed f n hn => cases made
  | made m m₀ prepared bound =>
    have settled : m.Settled := bound ▸ (settled_prepare prepared).bindHandles
    cases made
    exact ⟨settled, by simp [Tally.zero], fun _ => ⟨rfl, rfl⟩, nofun⟩

end Context

/-- What a context that goes with a tally is like between two requests. -/
structure Lifecycle (c : Context) (n : Tally) : Prop where
  /-- The script waits or is over, if one was started. -/
  state : c.state = none ∨ c.state = some .suspended ∨ c.state = some .completed ∨
    c.state = some .failed
  /-- There is no script just as long as none was started. -/
  absent : c.state = none ↔ n.started = 0
  /-- The script's coroutine had a turn for each of its steps, and no other. -/
  turns : ∀ t, c.task = some t → c.machine.turns.count t.thread = n.steps
  /-- A script is started just if none waits, and its code can be loaded and has room. -/
  accepts : ∀ code h, (c.run code h).value.1 = true ↔
    c.state ≠ some .suspended ∧ ∃ chunk, Lua.Archive.read code.bytes = .ok chunk ∧
      Context.HasRoom c.machine chunk
  /-- When the script is over, only another one that is started changes that. -/
  rests : ∀ q h, c.isFinished = true → (c.serve q h).value.1 ≠ .ran true →
    (c.serve q h).value.2.state = c.state ∧
      (c.serve q h).value.2.suspensions = c.suspensions
  /-- A script that is started has a coroutine of its own and a count of its own. -/
  renews : ∀ code h, (c.run code h).value.1 = true →
    (∃ t, (c.run code h).value.2.task = some t ∧ c.machine.threads.size ≤ t.thread) ∧
      (c.run code h).value.2.suspensions = (c.run code h).value.2.isWaiting.toNat
  /-- The count is that of the steps that ended with the script suspended, a number
  of 32 bits. -/
  suspensions : c.suspensions = n.waits % 2 ^ 32
  /-- So it is exact unless there were too many for it. -/
  exactly : n.waits < 2 ^ 32 → c.suspensions = n.waits
  /-- These are all steps, but for the last one of a script that is over. -/
  steps : n.steps = n.waits + (c.state.any TaskState.isTerminal).toNat

/-- The number of suspensions is counted in 32 bits. -/
theorem Context.Counted.suspensions_eq {c : Context} {n : Tally} (counted : c.Counted n) :
    c.suspensions = n.waits % 2 ^ 32 := by
  cases found : c.task with
  | none => simp [Context.suspensions, found, (counted.unused found).2]
  | some t => simpa [Context.suspensions, found] using (counted.task t found).suspensions

theorem Context.Counted.lifecycle {c : Context} {n : Tally} (counted : c.Counted n) :
    Lifecycle c n where
  state := counted.state
  absent := by simpa [Context.state] using counted.started
  turns t task := (counted.task t task).turns
  accepts := counted.run_accepted
  rests q h ended kept := by
    have idle : c.state ≠ some .suspended := by
      intro waits
      simp [Context.isFinished, waits, TaskState.isTerminal] at ended
    have rejected : c.rejects h q = true := by
      cases q with
      | resume => simp [Context.rejects, idle]
      | run code =>
        have refused : (c.run code h).value.1 ≠ true := fun accepted =>
          kept (congrArg Answer.ran accepted)
        simpa [Context.rejects] using refused
    obtain ⟨⟨m, same⟩, -, -⟩ := c.serve_of_rejects h rejected
    rw [same]
    exact ⟨rfl, rfl⟩
  renews code h accepted := by
    obtain ⟨after, own⟩ := counted.run_started accepted
    refine ⟨own, ?_⟩
    obtain ⟨t, task, -⟩ := own
    have count := (after.task t task).suspensions
    rw [Context.suspensions, task]
    refine count.trans ?_
    cases (c.run code h).value.2.isWaiting <;> rfl
  suspensions := counted.suspensions_eq
  exactly few := counted.suspensions_eq.trans (Nat.mod_eq_of_lt few)
  steps := by
    cases found : c.task with
    | none =>
      obtain ⟨steps, waits⟩ := counted.unused found
      simp [Context.state, found, steps, waits]
    | some t => simpa [Context.state, found] using (counted.task t found).steps

theorem ok_of_toOption {ε α : Type} {x : Except ε α} {a : α} (kept : x.toOption = some a) :
    x = .ok a := by
  cases x <;> cases kept
  rfl

/-- The life of a script.  A context can be made, if only there is memory for it; and
whatever it is asked for, at any time between two requests: its script waits or is
over, and there is none just as long as none was started; the script's coroutine had
one turn when the script was started and one for each time it was let go on while it
waited, and no other; a request to run a script is accepted just if none waits, and the
code can be loaded and has room with its coroutine; a script that is over stays so until another one is started, with
a coroutine and a count of its own; and the number of suspensions is that of the steps
that ended with the script suspended, as far as 32 bits tell, which are all of its steps
but the last one of a script that is over. -/
theorem task_lifecycle (config : Config) (s : SessionId) (e : EntityId) (h : Host)
    (requests : List (Host × Request)) :
    (config.memoryLimit = none → ∃ c, (Context.create config s e h).value = .ok c) ∧
      ∀ c ∈ (Context.create config s e h).value.toOption,
        Lifecycle (c.tally .zero requests).1 (c.tally .zero requests).2 := by
  refine ⟨fun unlimited => Context.create_of_unlimited unlimited s e h, fun c made => ?_⟩
  exact ((Context.counted_create (ok_of_toOption made)).tally requests).lifecycle

end NpcDialog
