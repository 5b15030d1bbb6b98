import NpcDialog.Proofs.Dialog.Furnishing
import NpcDialog.Proofs.Dialog.Invariant
import NpcDialog.Proofs.Dialog.Twins

/-!
# An interaction is a context of its own

A manager keeps the interactions of many sessions, and its calls come in any
order.  What one session hears of an interaction is nevertheless what would be
heard of a context that was made for the session and the entity alone, with the
same code, and that was asked to go on as often: neither the other sessions nor
earlier interactions of the same session make a difference.  The manager is
merely silent about a script that is over, and it throws its context away as
soon as the script is over, which may be heard: a machine that is given up
finalizes what it has.  So the other context is thrown away then, too.

The other context gets a number of its own.  It finds the same files as the
manager did at the same calls, which is all that a script can know of the world
outside.

* `World.interaction` — what a session hears.
* `Context.alone` — what is heard of a context by itself.
* `interaction_eq_alone` — that it is the same.
* `end_is_heard` — that the end of a context can be heard.
-/

namespace NpcDialog

/-- What is heard of a script at one call. -/
structure Heard where
  /-- The state it has come to, if there is one. -/
  state : Option TaskState
  /-- The events. -/
  events : List Event

/-- Nothing is heard. -/
def Heard.silence : Heard := ⟨none, []⟩

/-- What is heard, with silence about a script that is over. -/
def Heard.muted : List Heard → List Heard
  | [] => []
  | x :: xs =>
    x :: if x.state.any TaskState.isTerminal then List.replicate xs.length .silence else muted xs

/-- The session that a call is about. -/
def Call.session : Call → SessionId
  | .start s _ _ | .resume s | .abandon s => s

namespace Record

/-- Does a call end what there was of a session's interaction, or begin another
one? -/
def closes (r : Record) (s : SessionId) : Bool :=
  match r.call, r.reply with
  | .abandon k, _ => k == s
  | .start k _ _, .started (.ok (some _)) => k == s
  | _, _ => false

/-- What a session hears if the call lets its interaction go on. -/
def heard? (r : Record) (s : SessionId) : Option Heard :=
  match r.call, r.reply with
  | .resume k, .resumed st => if k = s then some ⟨st, Report.events r.reports⟩ else none
  | _, _ => none

end Record

namespace Record

variable {r : Record} {s : SessionId}

theorem closes_of_ne (other : r.call.session ≠ s) : r.closes s = false := by
  obtain ⟨call, reply, reports⟩ := r
  cases call with
  | start k e script =>
    have different : (k == s) = false := beq_eq_false_iff_ne.2 other
    unfold closes
    split <;> simp_all
  | resume k => rfl
  | abandon k => exact beq_eq_false_iff_ne.2 other

theorem heard?_of_ne (other : r.call.session ≠ s) : r.heard? s = none := by
  obtain ⟨call, reply, reports⟩ := r
  cases call with
  | start k e script => rfl
  | resume k => cases reply <;> simp_all [heard?, Call.session]
  | abandon k => rfl

end Record

namespace World

/-- What a session hears when it lets its interaction go on, among calls of all
kinds, the earliest first, until the interaction is abandoned or another one
begins.  The files at each time are noted. -/
def hears (s : SessionId) (w : World) : List Turn → List (FileTree × Heard)
  | [] => []
  | t :: later =>
    if (w.serve t).1.closes s then []
    else (((w.serve t).1.heard? s).map (t.files, ·)).toList ++ (w.serve t).2.hears s later

/-- What a session hears of the interaction that a call begins: at this call and
when it goes on among other calls, the earliest first. -/
def interaction (w : World) (n : Nat) (files : FileTree) (s : SessionId) (e : EntityId)
    (script : Metadata) (later : List Turn) : Option (List Heard) :=
  let first := w.serve ⟨n, files, .start s e script⟩
  match first.1.reply with
  | .started (.ok (some st)) =>
    some (⟨some st, Report.events first.1.reports⟩ :: (first.2.hears s later).map Prod.snd)
  | _ => none

/-- The files at the times when an interaction goes on that a call has begun. -/
def filesAt (w : World) (n : Nat) (files : FileTree) (s : SessionId) (e : EntityId)
    (script : Metadata) (later : List Turn) : List FileTree :=
  ((w.serve ⟨n, files, .start s e script⟩).2.hears s later).map Prod.fst

end World

namespace Context

/-- Throws a context away if its script is over. -/
def leave (c : Context) : Action Unit := if c.isFinished then c.drop else pure ()

/-- What is heard of a context that goes on, once for each of the files it finds.  It is
thrown away when its script is over. -/
def goesOn (n : ContextId) (c : Context) : List FileTree → List Heard
  | [] => []
  | files :: later =>
    let told := c.resume ⟨n, files⟩
    let left := told.value.2.leave told.host
    ⟨told.value.1, Report.events (told.reports ++ left.reports)⟩ :: told.value.2.goesOn n later

/-- What is heard of a new context that runs some code and goes on afterwards, with nothing
else around it, and that is thrown away when its script is over. -/
def alone (config : Config) (s : SessionId) (e : EntityId) (code : Bytecode) (n : ContextId)
    (files : FileTree) (later : List FileTree) : Option (List Heard) :=
  let made := create config s e ⟨n, files⟩
  match made.value with
  | .error _ => none
  | .ok c =>
    let ran := c.run code made.host
    let left := ran.value.2.leave ran.host
    if ran.value.1 then
      some (⟨ran.value.2.state, Report.events (made.reports ++ ran.reports ++ left.reports)⟩ ::
        ran.value.2.goesOn n later)
    else none

end Context

@[simp] theorem Context.length_goesOn (n : ContextId) (c : Context) (later : List FileTree) :
    (c.goesOn n later).length = later.length := by
  induction later generalizing c with
  | nil => rfl
  | cons files later ih => simp [goesOn, ih]

namespace Context

variable {c d : Context} {s : SessionId} {e : EntityId}

theorem leave_of_isFinished (isOver : c.isFinished = true) : c.leave = c.drop := if_pos isOver

theorem leave_of_waits (waits : c.isFinished = false) : c.leave = pure () := by
  rw [leave, waits]
  rfl

/-- The same is heard when twins are thrown away. -/
theorem Twins.leave_events (h : Twins s e s e c d) {host host' : Host} (files : host.files = host'.files) :
    Report.events (c.leave host).reports = Report.events (d.leave host').reports := by
  unfold leave
  rw [← h.isFinished]
  split
  · exact (matches_drop h host host' files).2.2.events_eq
  · rfl

end Context

/-! ## Other sessions -/

namespace Manager

variable (m : Manager) {s k : SessionId} (h : Host)

theorem find?_start_of_ne (other : k ≠ s) (e : EntityId) (script : Metadata) :
    (m.start k e script h).value.2.find? s = m.find? s := by
  have exit := m.started (s := k) e script h
  generalize m.start k e script h = told at exit
  cases exit with
  | opened => exact m.find?_insert_of_ne other.symm
  | _ => rfl

theorem find?_resume_of_ne (other : k ≠ s) : (m.resume k h).value.2.find? s = m.find? s := by
  have exit := m.resumed k h
  generalize m.resume k h = told at exit
  cases exit with
  | absent => rfl
  | ended => exact m.find?_erase_of_ne other.symm
  | waiting => exact m.find?_insert_of_ne other.symm

theorem find?_abandon_of_ne (other : k ≠ s) : (m.abandon k h).value.2.find? s = m.find? s := by
  have exit := m.abandoned k h
  generalize m.abandon k h = told at exit
  cases exit with
  | absent => rfl
  | ended => exact m.find?_erase_of_ne other.symm

end Manager

namespace World

variable {w : World} {s : SessionId} {t : Turn}

/-- A call about another session leaves a session's interaction as it is. -/
theorem find?_serve_of_ne (other : t.call.session ≠ s) :
    (w.serve t).2.manager.find? s = w.manager.find? s := by
  obtain ⟨n, files, call⟩ := t
  cases call with
  | start k e script =>
    rw [serve_start]
    exact w.manager.find?_start_of_ne _ other e script
  | resume k =>
    rw [serve_resume]
    exact w.manager.find?_resume_of_ne _ other
  | abandon k =>
    rw [serve_abandon]
    exact w.manager.find?_abandon_of_ne _ other

/-- A call about another session is not heard. -/
theorem hears_of_ne (other : t.call.session ≠ s) (later : List Turn) :
    w.hears s (t :: later) = (w.serve t).2.hears s later := by
  have same : (w.serve t).1.call.session ≠ s := other
  simp [hears, Record.closes_of_ne same, Record.heard?_of_ne same]

/-- An interaction that is abandoned is not heard any more. -/
theorem hears_abandon (n : Nat) (files : FileTree) (later : List Turn) :
    w.hears s (⟨n, files, .abandon s⟩ :: later) = [] := by
  simp [hears, Record.closes]

/-- What is heard when an interaction is to go on. -/
theorem hears_resume (n : Nat) (files : FileTree) (later : List Turn) :
    w.hears s (⟨n, files, .resume s⟩ :: later) =
      let told := w.manager.resume s ⟨⟨w.host.next.val + n⟩, files⟩
      (files, ⟨told.value.1, Report.events told.reports⟩) ::
        hears s ⟨told.value.2, told.host⟩ later := by
  simp [hears, Record.closes, Record.heard?]

/-- An interaction is heard until another one begins. -/
theorem hears_start (n : Nat) (files : FileTree) (e : EntityId) (script : Metadata)
    (later : List Turn) :
    w.hears s (⟨n, files, .start s e script⟩ :: later) =
      let told := w.manager.start s e script ⟨⟨w.host.next.val + n⟩, files⟩
      match told.value.1 with
      | .ok (some _) => []
      | _ => hears s ⟨told.value.2, told.host⟩ later := by
  rw [hears, serve_start]
  generalize w.manager.start s e script ⟨⟨w.host.next.val + n⟩, files⟩ = told
  obtain ⟨⟨answer, m⟩, host, rs⟩ := told
  rcases answer with f | (_ | st)
  · simp [Record.closes, Record.heard?]
  · simp [Record.closes, Record.heard?]
  · simp [Record.closes]

/-! ## A session without an interaction -/

/-- Where there is no interaction, nothing is heard until one begins.  The
induction is on the calls. -/
theorem hears_of_free (later : List Turn) (free : w.manager.find? s = none) :
    (w.hears s later).map Prod.snd = List.replicate (w.hears s later).length .silence := by
  induction later generalizing w with
  | nil => rfl
  | cons t later ih =>
    by_cases other : t.call.session = s
    case neg =>
      rw [hears_of_ne other]
      exact ih ((find?_serve_of_ne other).trans free)
    have still (host : Host) := ih (w := ⟨w.manager, host⟩) free
    obtain ⟨n, files, call⟩ := t
    cases call with
    | start k e script =>
      obtain rfl : k = s := other
      have exit := w.manager.started (s := k) e script ⟨⟨w.host.next.val + n⟩, files⟩
      rw [hears_start]
      generalize w.manager.start k e script ⟨⟨w.host.next.val + n⟩, files⟩ = told at exit
      cases exit with
      | busy taken => simp [Manager.isActive, free] at taken
      | mute => exact still _
      | unmade => exact still _
      | unstarted => exact still _
      | finished _ _ made ran =>
        obtain ⟨st, -, state, -⟩ := (Context.launched made ran).rests rfl
        simp [state]
      | opened _ _ made ran =>
        obtain ⟨st, -, state, -⟩ := (Context.launched made ran).rests rfl
        simp [state]
    | resume k =>
      obtain rfl : k = s := other
      have exit := w.manager.resumed k ⟨⟨w.host.next.val + n⟩, files⟩
      rw [hears_resume]
      generalize w.manager.resume k ⟨⟨w.host.next.val + n⟩, files⟩ = told at exit
      cases exit with
      | absent => simpa [Heard.silence, List.replicate_succ] using still _
      | ended found => simp [free] at found
      | waiting found => simp [free] at found
    | abandon k =>
      obtain rfl : k = s := other
      rw [hears_abandon]
      rfl

/-! ## A session with an interaction -/

/-- As long as a session's interaction is kept and is the twin of another context,
both are heard alike.  The induction is on the calls. -/
theorem hears_of_twins {c d : Context} {e : EntityId} (number : ContextId) (later : List Turn)
    (found : w.manager.find? s = some c) (waits : ∃ t, c.task = some t ∧ t.state = .suspended)
    (twins : c.Twins s e s e d) :
    (w.hears s later).map Prod.snd =
      Heard.muted (d.goesOn number ((w.hears s later).map Prod.fst)) := by
  induction later generalizing w c d with
  | nil => rfl
  | cons t later ih =>
    by_cases other : t.call.session = s
    case neg =>
      rw [hears_of_ne other]
      exact ih ((find?_serve_of_ne other).trans found) waits twins
    obtain ⟨n, files, call⟩ := t
    cases call with
    | start k e' script =>
      obtain rfl : k = s := other
      have exit := w.manager.started (s := k) e' script ⟨⟨w.host.next.val + n⟩, files⟩
      rw [hears_start]
      generalize w.manager.start k e' script ⟨⟨w.host.next.val + n⟩, files⟩ = told at exit
      have active : w.manager.isActive k = true := by simp [Manager.isActive, found]
      cases exit with
      | busy => exact ih (w := ⟨w.manager, ⟨⟨w.host.next.val + n⟩, files⟩⟩) found waits twins
      | _ free => exact absurd (active.symm.trans free) (by simp)
    | resume k =>
      obtain rfl : k = s := other
      have exit := w.manager.resumed k ⟨⟨w.host.next.val + n⟩, files⟩
      rw [hears_resume]
      generalize w.manager.resume k ⟨⟨w.host.next.val + n⟩, files⟩ = told at exit
      have step := Context.matches_resume twins ⟨⟨w.host.next.val + n⟩, files⟩ ⟨number, files⟩ rfl
      cases exit with
      | absent free => simp [free] at found
      | @ended c' c₁ st h' rs found' went isOver =>
        obtain rfl : c' = c := Option.some.inj (found'.symm.trans found)
        rw [went] at step
        obtain ⟨⟨same, twins'⟩, files', told⟩ := step
        have left := twins'.leave_events files'
        rw [Context.leave_of_isFinished isOver] at left
        obtain ⟨x, failure, rfl, state, -⟩ := Context.state_of_resume waits went
        rw [Context.isFinished_of_state state] at isOver
        have silent := hears_of_free (w := ⟨w.manager.erase k, (c₁.drop h').host⟩) later
          (Manager.find?_erase_self _)
        simp [Context.goesOn, Heard.muted, ← same, told.events_eq, left, isOver, silent]
      | @waiting c' c₁ st h' rs found' went isOver =>
        obtain rfl : c' = c := Option.some.inj (found'.symm.trans found)
        rw [went] at step
        obtain ⟨⟨same, twins'⟩, files', told⟩ := step
        have left := twins'.leave_events files'
        rw [Context.leave_of_waits isOver] at left
        obtain ⟨x, failure, rfl, state, rests⟩ := Context.state_of_resume waits went
        have waits' := Context.waits_of_rests state rests isOver
        rw [Context.isFinished_of_state state] at isOver
        have again := ih (w := ⟨w.manager.insert k c₁, h'⟩) (Manager.find?_insert_self _)
          waits' twins'
        simp [Context.goesOn, Heard.muted, ← same, told.events_eq, ← left, isOver, again]
    | abandon k =>
      obtain rfl : k = s := other
      rw [hears_abandon]
      rfl

end World

/-! ## The beginning of an interaction -/

namespace Context

variable {config : Config} {s : SessionId} {e : EntityId} {n : ContextId} {files : FileTree}
  {h₁ h₂ : Host}
  {code : Bytecode} {rs qs : List Report}

/-- By itself a context cannot be made either. -/
theorem alone_of_unmade {f : ExecutionFault}
    (made : create config s e ⟨n, files⟩ = ⟨.error f, h₁, rs⟩)
    (number : ContextId) (later : List FileTree) :
    alone config s e code number files later = none := by
  have twins := (matches_create config s e s e ⟨n, files⟩ ⟨number, files⟩ rfl).1
  rw [made] at twins
  cases result : (create config s e ⟨number, files⟩).value with
  | error f => simp [alone, result]
  | ok c =>
    rw [result] at twins
    cases twins

/-- By itself a context accepts the same code, and is a twin afterwards. -/
theorem alone_of_launch {c d : Context} {accepted : Bool}
    (made : create config s e ⟨n, files⟩ = ⟨.ok c, h₁, rs⟩)
    (ran : c.run code h₁ = ⟨(accepted, d), h₂, qs⟩)
    (number : ContextId) :
    ∃ d' : Context, d.Twins s e s e d' ∧ ∀ later, alone config s e code number files later =
      if accepted then
        some (⟨d.state, Report.events (rs ++ qs ++ (d.leave h₂).reports)⟩ :: d'.goesOn number later)
      else none := by
  obtain ⟨twins, same, told⟩ := matches_create config s e s e ⟨n, files⟩ ⟨number, files⟩ rfl
  rw [made] at twins same told
  cases result : (create config s e ⟨number, files⟩).value with
  | error f =>
    rw [result] at twins
    cases twins
  | ok c' =>
    rw [result] at twins
    cases twins with
    | ok twins =>
      obtain ⟨⟨accepts, twins⟩, files', told'⟩ := matches_run twins code _ _ same
      rw [ran] at accepts twins told' files'
      refine ⟨_, twins, fun later => ?_⟩
      simp [alone, result, ← accepts, twins.state, told.events_eq, told'.events_eq,
        twins.leave_events files']

end Context

namespace World

/-- A manager makes contexts always the same way. -/
theorem config_after (config : Config) (host : Host) (past : List Turn) :
    ((new config host).after past).manager.config = config := by
  refine after_induction (P := fun w _ => w.manager.config = config) rfl ?_ past
  rintro w past ⟨n, files, call⟩ same
  cases call with
  | start s e script =>
    have exit := w.manager.started (s := s) e script ⟨⟨w.host.next.val + n⟩, files⟩
    rw [serve_start]
    generalize w.manager.start s e script ⟨⟨w.host.next.val + n⟩, files⟩ = told at exit
    cases exit <;> exact same
  | resume s =>
    have exit := w.manager.resumed s ⟨⟨w.host.next.val + n⟩, files⟩
    rw [serve_resume]
    generalize w.manager.resume s ⟨⟨w.host.next.val + n⟩, files⟩ = told at exit
    cases exit <;> exact same
  | abandon s =>
    have exit := w.manager.abandoned s ⟨⟨w.host.next.val + n⟩, files⟩
    rw [serve_abandon]
    generalize w.manager.abandon s ⟨⟨w.host.next.val + n⟩, files⟩ = told at exit
    cases exit <;> exact same

end World

/-- Whatever a manager was asked before, and whatever it is asked in between, what
a session hears of an interaction is what is heard of a context by itself. -/
theorem interaction_eq_alone (config : Config) (host : Host) (past : List Turn) (n : Nat)
    (files : FileTree)
    (s : SessionId) (e : EntityId) (script : Metadata) (later : List Turn) (number : ContextId) :
    let w := (World.new config host).after past
    w.interaction n files s e script later =
      if w.manager.isActive s then none
      else script.code.bind fun code =>
        (Context.alone config s e code number files
          (w.filesAt n files s e script later)).map Heard.muted := by
  intro w
  have same : w.manager.config = config := World.config_after config host past
  have exit := w.manager.started (s := s) e script ⟨⟨w.host.next.val + n⟩, files⟩
  simp only [World.interaction, World.filesAt, World.serve_start]
  generalize w.manager.start s e script ⟨⟨w.host.next.val + n⟩, files⟩ = told at exit
  cases exit with
  | busy taken => simp [taken]
  | mute free code => simp [free, code]
  | unmade free known made =>
    rw [same] at made
    simp [free, known, Context.alone_of_unmade made]
  | unstarted free known made ran =>
    rw [same] at made
    obtain ⟨d', -, alone⟩ := Context.alone_of_launch made ran number
    simp [free, known, alone]
  | finished free known made ran isOver =>
    rw [same] at made
    obtain ⟨d', -, alone⟩ := Context.alone_of_launch made ran number
    rw [Context.leave_of_isFinished isOver] at alone
    obtain ⟨st, failure, state, -⟩ := (Context.launched made ran).rests rfl
    rw [Context.isFinished_of_state state] at isOver
    have absent : w.manager.find? s = none := by simpa [Manager.isActive] using free
    have silent (host : Host) := World.hears_of_free (w := ⟨w.manager, host⟩) later absent
    simp [free, known, alone, state, Heard.muted, isOver, silent]
  | opened free known made ran isOver =>
    rw [same] at made
    obtain ⟨d', twins, alone⟩ := Context.alone_of_launch made ran number
    obtain ⟨st, failure, state, rests⟩ := (Context.launched made ran).rests rfl
    have waits := Context.waits_of_rests state rests isOver
    rw [Context.leave_of_waits isOver] at alone
    rw [Context.isFinished_of_state state] at isOver
    have heard (host : Host) := World.hears_of_twins (w := ⟨w.manager.insert s _, host⟩)
      number later
      (Manager.find?_insert_self _) waits twins
    simp [free, known, alone, state, Heard.muted, isOver, heard]

/-! ## The end of a context -/

/-- A script that leaves something behind that is to be finalized. -/
def leaving : String := "setmetatable(\x7b\x7d, \x7b__gc = function() mes('bye') end\x7d)"

/-- Nothing is heard of it before its context is thrown away. -/
theorem leaving_heard :
    (do
      let code ← Bytecode.ofSource? leaving
      let c ← Context.furnish .default ⟨1⟩ ⟨2⟩ (.start .empty)
      let ran := c.run code ⟨⟨2⟩, .empty⟩
      let left := ran.value.2.drop ran.host
      return ((ran.value.1, ran.value.2.state), Report.events ran.reports, Report.events left.reports)) =
      some ((true, some .completed), [], [⟨⟨1⟩, ⟨2⟩, .message "bye"⟩]) := by
  decide +kernel

/-- If a script is over at once, a session hears it and the end of its context. -/
theorem World.interaction_of_finished {w : World} {n : Nat} {files : FileTree} {s : SessionId}
    {e : EntityId} {script : Metadata} {code : Bytecode} {c d : Context} {h₁ h₂ : Host}
    {rs qs : List Report} {st : TaskState} (free : w.manager.isActive s = false)
    (known : script.code = some code)
    (made : Context.create w.manager.config s e ⟨⟨w.host.next.val + n⟩, files⟩ = ⟨.ok c, h₁, rs⟩)
    (ran : c.run code h₁ = ⟨(true, d), h₂, qs⟩) (state : d.state = some st)
    (isOver : st.isTerminal = true) :
    w.interaction n files s e script [] =
      some [⟨some st, Report.events (rs ++ qs ++ (d.drop h₂).reports)⟩] := by
  have started := w.manager.start_of_finished free known made ran
    ((Context.isFinished_of_state state).trans isOver)
  simp [interaction, hears, started, state]

/-- So what a session hears of an interaction is more than what is heard of a context that is
kept when its script is over. -/
theorem end_is_heard :
    ∃ (script : Metadata) (code : Bytecode) (c : Context), script.code = some code ∧
      (World.new .default (.start .empty)).interaction 0 .empty ⟨1⟩ ⟨2⟩ script [] =
        some [⟨some .completed, [⟨⟨1⟩, ⟨2⟩, .message "bye"⟩]⟩] ∧
      (Context.create .default ⟨1⟩ ⟨2⟩ (.start .empty)).value = .ok c ∧
      let ran := c.run code (Context.create .default ⟨1⟩ ⟨2⟩ (.start .empty)).host
      ran.value.2.state = some .completed ∧ Report.events ran.reports = [] := by
  obtain ⟨code, -, heard⟩ := Option.bind_eq_some_iff.1 leaving_heard
  obtain ⟨c, furnished, heard⟩ := Option.bind_eq_some_iff.1 heard
  have made := Context.create_of_furnish furnished
  have heard := Option.some.inj heard
  rw [Prod.mk.injEq, Prod.mk.injEq, Prod.mk.injEq] at heard
  rcases ran : c.run code ⟨⟨2⟩, .empty⟩ with ⟨⟨accepted, d⟩, h₂, qs⟩
  rw [ran] at heard
  obtain ⟨⟨rfl, state⟩, silent, left⟩ := heard
  let script : Metadata := ⟨"", "", 0, 0, 0, "", 0, some code⟩
  have free : (World.new .default (.start .empty)).manager.isActive ⟨1⟩ = false := rfl
  have known : script.code = some code := rfl
  refine ⟨script, code, c, known, ?_, congrArg Told.value made, ?_⟩
  · have whole : (World.new .default (.start .empty)).interaction 0 .empty ⟨1⟩ ⟨2⟩ script [] = _ :=
      World.interaction_of_finished free known made ran state rfl
    rw [whole]
    simp only [Report.events_append, Report.events_line, Report.events_nil, List.nil_append] at silent left ⊢
    rw [silent, left]
    rfl
  · rw [made]
    exact ⟨(congrArg (·.value.2.state) ran).trans state, (congrArg (Report.events ·.reports) ran).trans silent⟩

end NpcDialog
