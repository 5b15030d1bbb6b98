import NpcDialog.Proofs.Dialog.Invariant

/-!
# The log keeps account of interactions

A manager writes into the log what becomes of its contexts.  Which place writes that a
context is at its end depends on how it ends: at once, in a later step, abandoned by its
session, or thrown away with the manager.  Still the lines go together at any time: each
context that was made was not started, was over at once or has begun an interaction, and
each interaction that has begun was ended, was abandoned or is still there.

* `Milestone`, `Report.milestones` — the lines about the life of contexts.
* `Accounts` — lines that go together with the number of interactions.
* `Manager.accounts_start`, `Manager.accounts_resume`, `Manager.accounts_abandon` — what
  each call adds.
* `World.log_balances` — the result.
-/

namespace NpcDialog

/-! ## Milestones -/

/-- What a line says of the life of a context or of an interaction. -/
inductive Milestone where
  /-- A context was made. -/
  | created
  /-- Its script could not be started. -/
  | couldNotStart
  /-- Its interaction was over at once. -/
  | finishedImmediately
  /-- Its interaction has begun. -/
  | startedTalking
  /-- Its interaction has ended. -/
  | ended
  /-- Its interaction was abandoned. -/
  | abandoned
  /-- It was thrown away while its script waited. -/
  | abandoning
  /-- Its script has failed. -/
  | failed
  /-- Its script has come to a state. -/
  | now (st : TaskState)
  deriving DecidableEq

/-- What a line says of that, if it is about it at all. -/
def LogLine.milestone? : LogLine → Option Milestone
  | .created _ _ _ => some .created
  | .couldNotStart _ _ _ => some .couldNotStart
  | .finishedImmediately _ _ => some .finishedImmediately
  | .startedTalking _ _ _ => some .startedTalking
  | .interactionEnded _ _ => some .ended
  | .interactionAbandoned _ => some .abandoned
  | .abandoning _ => some .abandoning
  | .taskFailed _ _ => some .failed
  | .taskNow _ st => some (.now st)
  | _ => none

/-- How many lines say it. -/
def Milestone.tally (k : Milestone) (ls : List LogLine) : Nat :=
  (ls.filterMap LogLine.milestone?).count k

/-- What is said of that among reports. -/
def Report.milestones (rs : List Report) : List Milestone :=
  (Report.lines rs).filterMap LogLine.milestone?

namespace Report

variable (rs rs' : List Report)

@[simp] theorem milestones_nil : milestones [] = [] := rfl

@[simp] theorem milestones_append :
    milestones (rs ++ rs') = milestones rs ++ milestones rs' := by
  simp [milestones]

@[simp] theorem milestones_line (l : LogLine) :
    milestones (.line l :: rs) = l.milestone?.toList ++ milestones rs := by
  cases told : l.milestone? <;> simp [milestones, told]

@[simp] theorem milestones_map_line (ls : List LogLine) :
    milestones (ls.map .line) = ls.filterMap LogLine.milestone? := by
  simp [milestones]

end Report

/-- Callbacks say nothing of that. -/
theorem LogLine.milestone?_of_isOfCallback {l : LogLine} (h : l.isOfCallback) :
    l.milestone? = none := by
  cases l <;> simp_all [isOfCallback, milestone?]

/-- The lines of callbacks can be left out when it is counted what is said. -/
theorem LogLine.milestones_filter (ls : List LogLine) :
    (ls.filter (!·.isOfCallback)).filterMap LogLine.milestone? = ls.filterMap LogLine.milestone? := by
  rw [List.filterMap_filter]
  refine List.filterMap_congr fun l _ => ?_
  cases call : l.isOfCallback with
  | true => exact (LogLine.milestone?_of_isOfCallback call).symm
  | false => rfl

/-! ## Accounts -/

/-- Lines that go together, and with the number of interactions before and behind
them. -/
structure Accounts (before : Nat) (ms : List Milestone) (behind : Nat) : Prop where
  /-- Each context that was made was not started, was over at once or has begun an
  interaction. -/
  contexts : ms.count .created =
    ms.count .startedTalking + ms.count .finishedImmediately + ms.count .couldNotStart
  /-- Each interaction that was there or has begun was ended, was abandoned or is still
  there. -/
  interactions : before + ms.count .startedTalking =
    ms.count .ended + ms.count .abandoned + behind
  /-- A waiting script was thrown away just when its interaction was abandoned. -/
  waiting : ms.count .abandoning = ms.count .abandoned
  /-- A script has failed just when it came to the state of those that have. -/
  failures : ms.count .failed = ms.count (.now .failed)
  /-- A script comes to no state but those in which one rests. -/
  rests : ∀ st, .now st ∈ ms → st = .suspended ∨ st = .completed ∨ st = .failed

namespace Accounts

variable {a b c : Nat} {ms ns : List Milestone}

/-- Nothing was said, and nothing has changed. -/
theorem nothing (a : Nat) : Accounts a [] a := ⟨rfl, by simp, rfl, rfl, by simp⟩

theorem append (h : Accounts a ms b) (k : Accounts b ns c) : Accounts a (ms ++ ns) c := by
  have contexts := h.contexts
  have contexts' := k.contexts
  have interactions := h.interactions
  have interactions' := k.interactions
  constructor
  · simp only [List.count_append]
    omega
  · simp only [List.count_append]
    omega
  · simp only [List.count_append, h.waiting, k.waiting]
  · simp only [List.count_append, h.failures, k.failures]
  · intro st mem
    exact (List.mem_append.1 mem).elim (h.rests st) (k.rests st)

/-- A context is made and comes to its end at once. -/
theorem enclose_over {k : Milestone} (h : Accounts a ms b)
    (ended : k = .couldNotStart ∨ k = .finishedImmediately) :
    Accounts a (.created :: (ms ++ [k])) b := by
  obtain ⟨contexts, interactions, waiting, failures, rests⟩ := h
  obtain rfl | rfl := ended <;> refine ⟨?_, ?_, ?_, ?_, ?_⟩ <;> simp at * <;> omega

/-- A context is made and begins an interaction. -/
theorem enclose_begun (h : Accounts a ms b) :
    Accounts a (.created :: (ms ++ [.startedTalking])) (b + 1) := by
  obtain ⟨contexts, interactions, waiting, failures, rests⟩ := h
  refine ⟨?_, ?_, ?_, ?_, ?_⟩ <;> simp at * <;> omega

/-- An interaction ends. -/
theorem ended (a : Nat) : Accounts (a + 1) [.ended] a :=
  ⟨rfl, by simp [Nat.add_comm], rfl, rfl, by simp⟩

/-- An interaction is abandoned while its script waits. -/
theorem abandoned (a : Nat) : Accounts (a + 1) [.abandoning, .abandoned] a :=
  ⟨rfl, by simp [Nat.add_comm], rfl, rfl, by simp⟩

end Accounts

/-! ## Contexts -/

namespace Context

/-- What is said of a step: that the script has failed, if it has, and the state it came
to. -/
theorem Stepped.milestones {c : Context} {h : Host} {st : TaskState} {failure : Option Failure}
    {x : Told Context} (went : Stepped c h st failure x) :
    Report.milestones x.reports = failure.toList.map (fun _ => .failed) ++ [.now st] := by
  obtain ⟨calls, lines, callbacks⟩ := went.lines
  have silent : calls.filterMap LogLine.milestone? = [] :=
    List.filterMap_eq_nil_iff.2 fun l mem => LogLine.milestone?_of_isOfCallback (callbacks l mem)
  rw [Report.milestones, lines, List.filterMap_append, silent]
  cases failure <;> rfl

/-- A step goes together with any number of interactions. -/
theorem Stepped.accounts {c : Context} {h : Host} {st : TaskState} {failure : Option Failure}
    {x : Told Context} (went : Stepped c h st failure x) (n : Nat) :
    Accounts n (Report.milestones x.reports) n := by
  have rests := went.rests.state
  have failed := went.rests.failure
  rw [went.milestones]
  cases failure with
  | none =>
    have other : st ≠ .failed := fun same => by simp [same] at failed
    refine ⟨by simp, by simp, by simp, by simp [other], fun st' mem => ?_⟩
    obtain rfl : st' = st := by simpa using mem
    exact rests
  | some f =>
    obtain rfl : st = .failed := failed.1 rfl
    exact ⟨by simp, by simp, by simp, by simp, fun st' mem => .inr (.inr (by simpa using mem))⟩

theorem farewell_of_waits {c : Context} (waits : c.state = some .suspended) :
    c.farewell = [.abandoning c.id] := by
  simp [farewell, waits]

theorem farewell_of_isFinished {c : Context} (isOver : c.isFinished = true) : c.farewell = [] := by
  unfold farewell
  split
  · next waits => simp [isFinished, eq_of_beq waits, TaskState.isTerminal] at isOver
  · rfl

/-- What is said when a context is thrown away, besides what callbacks say. -/
theorem milestones_drop (c : Context) (h : Host) :
    Report.milestones (c.drop h).reports = c.farewell.filterMap LogLine.milestone? := by
  obtain ⟨calls, lines, callbacks⟩ := c.lines_drop h
  have silent : calls.filterMap LogLine.milestone? = [] :=
    List.filterMap_eq_nil_iff.2 fun l mem => LogLine.milestone?_of_isOfCallback (callbacks l mem)
  rw [Report.milestones, lines, List.filterMap_append, silent, List.append_nil]

/-- What is said of a new context that was asked to run a script: that it was made, and of
the first step, if there is one. -/
theorem accounts_launch {config : Config} {s : SessionId} {e : EntityId} {h h₁ h₂ : Host}
    {c d : Context} {code : Bytecode} {accepted : Bool} {rs qs : List Report}
    (made : create config s e h = ⟨.ok c, h₁, rs⟩) (ran : c.run code h₁ = ⟨(accepted, d), h₂, qs⟩) :
    Report.milestones rs = [.created] ∧ (∀ n, Accounts n (Report.milestones qs) n) ∧
      (accepted = false → d.farewell = []) := by
  have first := created config s e h
  rw [made] at first
  cases first with
  | made m =>
    refine ⟨rfl, ?_⟩
    have second := Context.ran ⟨h.next, s, e, none, m, .between h.next s e⟩ code
      ⟨⟨h.next.val + 1⟩, h.files⟩
    rw [ran] at second
    cases second with
    | refused st state waits => exact absurd state (by simp [Context.state])
    | unstarted f m' idle launched =>
      refine ⟨fun n => ?_, fun _ => by simp [farewell, state]⟩
      cases f <;> exact .nothing n
    | started m t =>
      obtain ⟨st, failure, went⟩ := stepped ⟨h.next, s, e, none, m, .between h.next s e⟩ t
        ⟨⟨h.next.val + 1⟩, h.files⟩
      refine ⟨went.accounts, fun refused => ?_⟩
      cases refused

end Context

/-! ## Calls -/

namespace Manager

variable {m : Manager} {s : SessionId} {c d : Context} {next : Nat} {past : List Record}

/-- There is one interaction more when one is put in for a session that has none. -/
theorem activeCount_insert_of_free (free : m.find? s = none) :
    (m.insert s d).activeCount = m.activeCount + 1 := by
  have others : ∀ p ∈ m.active, (p.1 != s) = true := by
    intro p mem
    rw [bne_comm]
    exact List.lookup_eq_none_iff.1 free p mem
  simp [activeCount, insert, erase, List.filter_eq_self.2 others]

/-- There is one interaction less when that of a session is taken out. -/
theorem activeCount_erase (sound : Sound m next past) (found : m.find? s = some c) :
    (m.erase s).activeCount + 1 = m.activeCount := by
  have mem : s ∈ m.active.map Prod.fst := List.mem_map_of_mem (m.mem_of_find? found)
  have one : (m.active.map Prod.fst).count s = 1 := List.count_eq_one_of_mem sound.sessions mem
  have own : m.active.countP (fun p => decide ¬ (p.1 != s) = true) = 1 := by
    rw [← one, List.count, List.countP_map]
    congr 1
    funext p
    by_cases here : p.1 = s <;> simp [here]
  have parts := List.length_eq_countP_add_countP (l := m.active) fun p => p.1 != s
  rw [own] at parts
  simp only [activeCount, erase, ← List.countP_eq_length_filter]
  exact parts.symm

/-- There are as many interactions as before when that of a session is replaced. -/
theorem activeCount_insert_of_found (sound : Sound m next past) (found : m.find? s = some c) :
    (m.insert s d).activeCount = m.activeCount := by
  rw [← activeCount_erase sound found]
  rfl

/-- A call that begins an interaction. -/
theorem accounts_start (e : EntityId) (script : Metadata) (h : Host) :
    Accounts m.activeCount (Report.milestones (m.start s e script h).reports)
      (m.start s e script h).value.2.activeCount := by
  have exit := m.started (s := s) e script h
  generalize m.start s e script h = told at exit
  cases exit with
  | busy taken => exact .nothing _
  | mute free code => exact .nothing _
  | unmade free known made =>
    have first := Context.created m.config s e h
    rw [made] at first
    cases first with
    | failed f n hn => exact .nothing _
  | @unstarted c d h₁ h₂ rs qs free code known made ran =>
    obtain ⟨created, step, silent⟩ := Context.accounts_launch made ran
    have told : Report.milestones
        (rs ++ (qs ++ (.line (.couldNotStart script.name e s) :: (d.drop h₂).reports))) =
        .created :: (Report.milestones qs ++ [.couldNotStart]) := by
      simp [created, Context.milestones_drop, silent rfl, LogLine.milestone?]
    rw [told]
    exact (step _).enclose_over (.inl rfl)
  | @finished c d h₁ h₂ rs qs free code known made ran isOver =>
    obtain ⟨created, step, -⟩ := Context.accounts_launch made ran
    have told : Report.milestones
        (rs ++ (qs ++ (.line (.finishedImmediately s e) :: (d.drop h₂).reports))) =
        .created :: (Report.milestones qs ++ [.finishedImmediately]) := by
      simp [created, Context.milestones_drop, Context.farewell_of_isFinished isOver, LogLine.milestone?]
    rw [told]
    exact (step _).enclose_over (.inr rfl)
  | @opened c d h₁ h₂ rs qs free code known made ran isOver =>
    obtain ⟨created, step, -⟩ := Context.accounts_launch made ran
    have told : Report.milestones (rs ++ (qs ++ [.line (.startedTalking s script.name e)])) =
        .created :: (Report.milestones qs ++ [.startedTalking]) := by
      simp [created, LogLine.milestone?]
    have none_ : m.find? s = none := by simpa [isActive] using free
    rw [told, activeCount_insert_of_free none_]
    exact (step _).enclose_begun

/-- A call that lets an interaction go on. -/
theorem accounts_resume (sound : Sound m next past) (h : Host) :
    Accounts m.activeCount (Report.milestones (m.resume s h).reports)
      (m.resume s h).value.2.activeCount := by
  have exit := m.resumed s h
  generalize m.resume s h = told at exit
  cases exit with
  | absent free => exact .nothing _
  | @ended c d st h' rs found went isOver =>
    have entry := sound.entries s c (m.mem_of_find? found)
    obtain ⟨t, -, step, -⟩ := Context.step_of_resume entry.waits went
    obtain ⟨st', failure, stepped⟩ := Context.stepped c t h
    rw [step] at stepped
    have told : Report.milestones (rs ++ (.line (.interactionEnded s st) :: (d.drop h').reports)) =
        Report.milestones rs ++ [.ended] := by
      simp [Context.milestones_drop, Context.farewell_of_isFinished isOver, LogLine.milestone?]
    rw [told, ← activeCount_erase sound found]
    exact (stepped.accounts _).append (.ended _)
  | @waiting c d st h' rs found went isOver =>
    have entry := sound.entries s c (m.mem_of_find? found)
    obtain ⟨t, -, step, -⟩ := Context.step_of_resume entry.waits went
    obtain ⟨st', failure, stepped⟩ := Context.stepped c t h
    rw [step] at stepped
    rw [activeCount_insert_of_found sound found]
    exact stepped.accounts _

/-- A call that ends an interaction. -/
theorem accounts_abandon (sound : Sound m next past) (h : Host) :
    Accounts m.activeCount (Report.milestones (m.abandon s h).reports)
      (m.abandon s h).value.2.activeCount := by
  have exit := m.abandoned s h
  generalize m.abandon s h = told at exit
  cases exit with
  | absent free => exact .nothing _
  | @ended c found =>
    have entry := sound.entries s c (m.mem_of_find? found)
    have told : Report.milestones ((c.drop h).reports ++ [.line (.interactionAbandoned s)]) =
        [.abandoning, .abandoned] := by
      simp [Context.milestones_drop, Context.farewell_of_waits entry.state, LogLine.milestone?]
    rw [told, ← activeCount_erase sound found]
    exact .abandoned _

/-- With a manager each of its interactions is thrown away, in a line of its own; the others are
those of callbacks.  The induction is on the interactions. -/
theorem lines_drop (sound : Sound m next past) (h : Host) :
    (Report.lines (m.drop h).reports).filter (!·.isOfCallback) =
      m.active.map fun p => .abandoning p.2.id := by
  have waits : ∀ p ∈ m.active, p.2.farewell = [.abandoning p.2.id] := fun p mem =>
    Context.farewell_of_waits (sound.entries p.1 p.2 mem).state
  unfold drop
  generalize m.active = l at waits
  induction l generalizing h with
  | nil => rfl
  | cons p l ih =>
    rw [List.forall_mem_cons] at waits
    obtain ⟨calls, lines, callbacks⟩ := p.2.lines_drop h
    have silent : calls.filter (!·.isOfCallback) = [] :=
      List.filter_eq_nil_iff.2 fun l mem => by simp [callbacks l mem]
    have rest := ih (p.2.drop h).host waits.2
    have own : (Report.lines (p.2.drop h).reports).filter (!·.isOfCallback) = [.abandoning p.2.id] := by
      rw [lines, waits.1, List.filter_append, silent]
      rfl
    rw [List.forM_eq_forM] at rest ⊢
    rw [List.forM_cons, Action.bind_apply, Report.lines_append, List.filter_append, own, rest]
    rfl

/-- A call that cannot set a context up writes nothing into the log. -/
theorem lines_of_setup {e : EntityId} {script : Metadata} {h : Host} {f : Failure}
    (answer : (m.start s e script h).value.1 = .error (.setup f)) :
    Report.lines (m.start s e script h).reports = [] := by
  have exit := m.started (s := s) e script h
  generalize m.start s e script h = told at exit answer
  cases exit with
  | busy | unstarted | mute | finished | opened => simp at answer
  | unmade free known made =>
    have first := Context.created m.config s e h
    rw [made] at first
    cases first with
    | failed f n hn => rfl

end Manager

/-! ## The log -/

/-- The lines that were written in some calls, the latest call first. -/
def Record.log (past : List Record) : List LogLine :=
  past.reverse.flatMap fun r => Report.lines r.reports

@[simp] theorem Record.log_cons (r : Record) (past : List Record) :
    log (r :: past) = log past ++ Report.lines r.reports := by
  simp [log]

namespace World

/-- One call, whatever it is. -/
theorem accounts_serve {w : World} {past : List Record}
    (sound : Sound w.manager w.host.next.val past) (t : Turn) :
    Accounts w.manager.activeCount (Report.milestones (w.serve t).1.reports)
      (w.serve t).2.manager.activeCount := by
  obtain ⟨n, files, call⟩ := t
  cases call with
  | start s e script =>
    simpa using Manager.accounts_start e script ⟨⟨w.host.next.val + n⟩, files⟩
  | resume s => simpa using Manager.accounts_resume sound ⟨⟨w.host.next.val + n⟩, files⟩
  | abandon s => simpa using Manager.accounts_abandon sound ⟨⟨w.host.next.val + n⟩, files⟩

variable (config : Config) (host : Host)

/-- The whole log goes together with the interactions that are there. -/
theorem accounts (past : List Turn) :
    Accounts 0 ((Record.log ((new config host).records past)).filterMap LogLine.milestone?)
      ((new config host).after past).manager.activeCount := by
  have first : Sound (new config host).manager (new config host).host.next.val [] :=
    sound config host []
  refine (after_induction (P := fun w past => Sound w.manager w.host.next.val past ∧
    Accounts 0 ((Record.log past).filterMap LogLine.milestone?) w.manager.activeCount)
    ⟨first, .nothing 0⟩ ?_ past).2
  rintro w past t ⟨sound, before⟩
  refine ⟨(sound_serve sound t).1, ?_⟩
  rw [Record.log_cons, List.filterMap_append]
  exact before.append (accounts_serve sound t)

/-- A call that cannot set a context up writes nothing into the log, at any time. -/
theorem lines_of_setup (past : List Turn) :
    ∀ r ∈ (new config host).records past, ∀ f, r.reply = .started (.error (.setup f)) →
      Report.lines r.reports = [] := by
  refine after_induction (P := fun _ past => ∀ r ∈ past, ∀ f,
    r.reply = .started (.error (.setup f)) → Report.lines r.reports = []) (by simp) ?_ past
  intro w past t before
  refine List.forall_mem_cons.2 ⟨?_, before⟩
  obtain ⟨n, files, call⟩ := t
  intro f reply
  cases call with
  | start s e script =>
    simp only [serve_start, Reply.started.injEq] at reply ⊢
    exact Manager.lines_of_setup reply
  | resume s => simp at reply
  | abandon s => simp at reply

/-- Behind any calls the log balances: each context that was made was not started, was
over at once or has begun an interaction; each interaction that has begun was ended, was
abandoned or is still there; a waiting script was thrown away for each that was abandoned,
and is for each that is thrown away with the manager; scripts come to rest only, and as
many have failed as came to the state of those that have. -/
theorem log_balances (past : List Turn) :
    let w := (new config host).after past
    let log := Record.log ((new config host).records past)
    (Milestone.created.tally log = Milestone.startedTalking.tally log +
        Milestone.finishedImmediately.tally log + Milestone.couldNotStart.tally log) ∧
      (Milestone.startedTalking.tally log = Milestone.ended.tally log +
        Milestone.abandoned.tally log + w.manager.activeCount) ∧
      (Milestone.abandoning.tally log = Milestone.abandoned.tally log) ∧
      (∀ h : Host,
        let last := Report.lines (w.manager.drop h).reports
        last.filter (!·.isOfCallback) = w.manager.active.map (fun p => .abandoning p.2.id) ∧
          Milestone.abandoning.tally (log ++ last) =
            Milestone.abandoned.tally (log ++ last) + w.manager.activeCount) ∧
      (∀ id st, .taskNow id st ∈ log → st = .suspended ∨ st = .completed ∨ st = .failed) ∧
      (Milestone.failed.tally log = (Milestone.now .failed).tally log) ∧
      (∀ r ∈ (new config host).records past, ∀ f,
        r.reply = .started (.error (.setup f)) → Report.lines r.reports = []) := by
  intro w log
  obtain ⟨contexts, interactions, waiting, failures, rests⟩ := accounts config host past
  rw [Nat.zero_add] at interactions
  refine ⟨contexts, interactions, waiting, fun h => ?_, fun id st mem => ?_, failures,
    lines_of_setup config host past⟩
  · intro last
    have each : last.filter (!·.isOfCallback) = w.manager.active.map (fun p => .abandoning p.2.id) :=
      Manager.lines_drop (sound config host past) h
    have said : last.filterMap LogLine.milestone? =
        List.replicate w.manager.activeCount .abandoning := by
      rw [← LogLine.milestones_filter, each, List.filterMap_map, Manager.activeCount,
        ← List.map_const']
      exact congrFun List.filterMap_eq_map _
    refine ⟨each, ?_⟩
    have waiting : Milestone.abandoning.tally log = Milestone.abandoned.tally log := waiting
    simp only [Milestone.tally, List.filterMap_append, List.count_append, said] at waiting ⊢
    simp [waiting, List.count_replicate]
  · exact rests st (List.mem_filterMap.2 ⟨_, mem, rfl⟩)

end World

end NpcDialog
