import NpcDialog.Proofs.Dialog.Reports

/-!
# What the operations of a context come to

Each operation of a context has a few exits.  Here they are listed once, with
the answer, the host and the reports of each, so that nothing else needs to
open the operations.

* `Context.turn_state` — a turn ends with the script suspended, completed or
  failed.
* `Context.Created`, `Context.Ran`, `Context.Resumed` — the exits.
* `Context.Stepped` — what all steps have in common.
-/

namespace NpcDialog

open Lua

/-! ## Actions -/

namespace Action

variable {α β : Type}

@[simp] theorem pure_apply (a : α) (h : Host) : (pure a : Action α) h = ⟨a, h, []⟩ := rfl

@[simp] theorem bind_apply (x : Action α) (f : α → Action β) (h : Host) :
    (x >>= f) h = ⟨(f (x h).value (x h).host).value, (f (x h).value (x h).host).host,
      (x h).reports ++ (f (x h).value (x h).host).reports⟩ := rfl

@[simp] theorem tellAll_apply (rs : List Report) (h : Host) : tellAll rs h = ⟨(), h, rs⟩ := rfl

@[simp] theorem log_apply (l : LogLine) (h : Host) : log l h = ⟨(), h, [.line l]⟩ := rfl

@[simp] theorem takeId_apply (h : Host) :
    takeId h = ⟨h.next, { h with next := ⟨h.next.val + 1⟩ }, []⟩ :=
  rfl

@[simp] theorem files_apply (h : Host) : files h = ⟨h.files, h, []⟩ := rfl

@[simp] theorem setFiles_apply (files : FileTree) (h : Host) :
    setFiles files h = ⟨(), { h with files }, []⟩ := rfl

end Action

namespace Context

/-! ## Steps -/

/-- What a turn comes to: the script rests in a state, and has failed just if there
is a failure to show. -/
structure Rests (st : TaskState) (failure : Option Failure) : Prop where
  /-- It waits, or is over. -/
  state : st = .suspended ∨ st = .completed ∨ st = .failed
  /-- The failure belongs to the state. -/
  failure : failure.isSome ↔ st = .failed

/-- A turn ends with the script suspended, completed or failed. -/
theorem turn_rests (thread : Nat) (m : Machine) (v : Conversation) :
    Rests (turn thread m v).1.1 (turn thread m v).1.2.1 := by
  rw [turn, Conversing.bind_apply]
  generalize (m.resumeThread thread #[] v) = answer
  obtain ⟨⟨result, m'⟩, v'⟩ := answer
  cases result with
  | ok vs =>
    show Rests (if m'.liveness thread == .suspended then .suspended else .completed) none
    split
    · exact ⟨.inl rfl, by simp⟩
    · exact ⟨.inr (.inl rfl), by simp⟩
  | error f => exact ⟨.inr (.inr rfl), ⟨fun _ => rfl, fun _ => rfl⟩⟩

/-- What all steps of a context have in common, whatever the script does. -/
structure Stepped (c : Context) (h : Host) (st : TaskState) (failure : Option Failure)
    (x : Told Context) : Prop where
  /-- It is the same context. -/
  id : x.value.id = c.id
  /-- The same session takes part. -/
  session : x.value.session = c.session
  /-- The same entity takes part. -/
  entity : x.value.entity = c.entity
  /-- Its script has come to the state. -/
  state : x.value.state = some st
  /-- The state is one in which a script rests. -/
  rests : Rests st failure
  /-- No number was taken. -/
  next : x.host.next = h.next
  /-- The lines are those of callbacks, and at the end those about the step. -/
  lines : ∃ calls, Report.lines x.reports = calls ++ c.outcome st failure ∧
    ∀ l ∈ calls, l.isOfCallback

/-- Every step comes to what steps come to. -/
theorem stepped (c : Context) (t : Task) (h : Host) :
    ∃ st failure, Stepped c h st failure (c.step t h) := by
  have rests := turn_rests t.thread (withFiles c.machine h.files) c.conversation.quiet
  have silent : c.conversation.quiet.OnlyCallbacks := by
    simp [Conversation.OnlyCallbacks, Conversation.quiet]
  have calls := (respected_onlyCallbacks.turn t.thread (withFiles c.machine h.files) _ _
    ⟨rfl, silent⟩).2.2
  rw [step, Action.bind_apply, Action.files_apply]
  generalize turn t.thread (withFiles c.machine h.files) c.conversation.quiet = x at rests calls
  obtain ⟨⟨state, failure, m⟩, v⟩ := x
  exact ⟨state, failure, rfl, rfl, rfl, rfl, rests, rfl, Report.lines v.reports.toList, by simp,
    calls⟩

/-! ## Exits -/

/-- The exits of making a context. -/
inductive Created (config : Config) (s : SessionId) (e : EntityId) (h : Host) :
    Told (Except ExecutionFault Context) → Prop
  /-- There is too little memory for its machine. -/
  | failed (f : Failure) (n : ContextId) (hn : h.next.val ≤ n.val) :
    Created config s e h ⟨.error (.setup f), ⟨n, h.files⟩, []⟩
  /-- It is made, with the next number. -/
  | made (m m₀ : Machine) (prepared : Machine.prepare config h.files = .ok m₀)
    (bound : m = m₀.bindHandles) : Created config s e h
      ⟨.ok ⟨h.next, s, e, none, m, .between h.next s e⟩, ⟨⟨h.next.val + 1⟩, h.files⟩,
        [.line (.created h.next s e)]⟩

theorem created (config : Config) (s : SessionId) (e : EntityId) (h : Host) :
    Created config s e h (create config s e h) := by
  rw [create, Action.bind_apply, Action.files_apply]
  cases prepared : Machine.prepare config h.files with
  | error f => exact .failed f _ (Nat.le_refl _)
  | ok m =>
    by_cases full : m.bindHandles.isOverfull
    · have made : Created config s e h _ := .failed .memory ⟨h.next.val + 1⟩ (Nat.le_succ _)
      simpa [full] using made
    · have made : Created config s e h _ := .made m.bindHandles m prepared rfl
      simpa [full] using made

/-- A script that cannot be started leaves the machine as it was, but for traces in its
memory. -/
theorem launch_error {code : Bytecode} {m m' : Machine} {f : LaunchFault}
    (failed : launch code m = (.error f, m')) : ∃ n, m' = { m with drift := n } := by
  have left : (launch code m).2 = m' := congrArg Prod.snd failed
  have outcome : (launch code m).1 = .error f := congrArg Prod.fst failed
  rw [← left]
  unfold launch at outcome ⊢
  cases read : Archive.read code.bytes with
  | error why => exact ⟨_, rfl⟩
  | ok chunk =>
    rw [read] at outcome
    dsimp only at outcome ⊢
    split at outcome
    · next full => exact ⟨_, by rw [if_pos full]; rfl⟩
    · next room =>
      rw [if_neg room]
      split at outcome
      · next full => exact ⟨_, by rw [if_pos full]; rfl⟩
      · cases outcome

/-- One that is started has a new coroutine for its code, if only there is memory for
both. -/
theorem launch_eq_ok {code : Bytecode} {m m' : Machine} {thread : Nat} :
    launch code m = (.ok thread, m') ↔ ∃ chunk, Archive.read code.bytes = .ok chunk ∧
      (m.loadChunk chunk).2.isOverfull = false ∧
      ((m.loadChunk chunk).2.charged? Machine.threadCost).isSome = true ∧
      (m.loadChunk chunk).2.newThread (m.loadChunk chunk).1 = (thread, m') := by
  unfold launch
  cases read : Archive.read code.bytes with
  | error why => simp
  | ok chunk =>
    cases full : (m.loadChunk chunk).2.isOverfull with
    | true => simp [full]
    | false =>
      cases room : (m.loadChunk chunk).2.charged? Machine.threadCost with
      | none => simp [full, room]
      | some charged => simp [full, room, Prod.ext_iff]

/-- The exits of running a script. -/
inductive Ran (c : Context) (code : Bytecode) (h : Host) : Told (Bool × Context) → Prop
  /-- Another script is still to go on. -/
  | refused (st : TaskState) (state : c.state = some st) (waits : st.isTerminal = false) :
    Ran c code h ⟨(false, c), h, [.line (.startRefused c.id st)]⟩
  /-- There is no coroutine for it. -/
  | unstarted (f : LaunchFault) (m : Machine)
    (idle : c.state.filter (fun s => !s.isTerminal) = none)
    (launched : launch code c.machine = (.error f, m)) :
    Ran c code h ⟨(false, { c with machine := m }), h, [.line (f.line c.id)]⟩
  /-- The script `t` is started, in the new coroutine of the machine `m`, and makes
  its first step. -/
  | started (m : Machine) (t : Task)
    (idle : c.state.filter (fun s => !s.isTerminal) = none)
    (launched : launch code c.machine = (.ok t.thread, m)) (task : t = ⟨t.thread, .created, 0⟩) :
    Ran c code h
      ⟨(true, (step { c with machine := m } t h).value), (step { c with machine := m } t h).host,
        (step { c with machine := m } t h).reports⟩

theorem ran (c : Context) (code : Bytecode) (h : Host) : Ran c code h (c.run code h) := by
  unfold run
  cases kept : c.state.filter fun s => !s.isTerminal with
  | some st =>
    obtain ⟨state, waits⟩ := Option.filter_eq_some_iff.1 kept
    exact .refused st state (by simpa using waits)
  | none =>
    rcases launched : launch code c.machine with ⟨f | thread, m⟩
    · exact .unstarted f m kept launched
    · have started : Ran c code h _ := .started m ⟨thread, .created, 0⟩ kept launched rfl
      simpa using started

/-- The exits of letting a context go on. -/
inductive Resumed (c : Context) (h : Host) : Told (Option TaskState × Context) → Prop
  /-- It has no script. -/
  | absent (none_ : c.task = none) : Resumed c h ⟨(none, c), h, []⟩
  /-- Its script makes a step. -/
  | stepped (t : Task) (task : c.task = some t) (waits : t.state = .suspended) :
    Resumed c h ⟨((c.step t h).value.state, (c.step t h).value), (c.step t h).host,
      (c.step t h).reports⟩
  /-- Its script does not wait. -/
  | ignored (t : Task) (task : c.task = some t) (idle : t.state ≠ .suspended) :
    Resumed c h ⟨(some t.state, c), h, [.line (.resumeIgnored c.id t.state)]⟩

theorem resumed (c : Context) (h : Host) : Resumed c h (c.resume h) := by
  unfold resume
  cases task : c.task with
  | none => exact .absent task
  | some t =>
    by_cases waits : t.state = .suspended
    · have again : Resumed c h _ := .stepped t task waits
      simpa [waits] using again
    · have again : Resumed c h _ := .ignored t task waits
      simpa [waits] using again

end Context

end NpcDialog
