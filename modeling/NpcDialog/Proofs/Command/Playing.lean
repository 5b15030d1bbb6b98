import Mathlib.Order.Bounds.Basic
import NpcDialog.Proofs.Dialog.Furnishing
import NpcDialog.Proofs.Dialog.Tasks
import NpcDialog.Proofs.Text.Lines

/-!
# How far an input lets a dialog go

A dialog that is played goes on once for each line of input for as long as it
waits and the line is text.  So what is printed are the events of the script run
from its start on and let go on a number of times, and those of the end of its
conversation; the number is the first one where the dialog waits no longer, or where
there is no line that is text.  This holds of scripts that leave the process alone: one
that writes to the standard output itself is seen there too.

* `Context.played` — a script run and let go on a number of times.
* `Plays` — the loop that reads the input, with the number of its reads.
* `plays_stage` — how far the loop comes.
* `Opening.Unshared` — the script leaves the process alone.
* `ofRun_plays_as_far_as_input` — what a run of the program prints and how it
  ends, for every input.
-/

namespace NpcDialog

namespace Context

/-- Lets a script go on a number of times. -/
def goOn : Nat → Context → Action Context
  | 0, c => pure c
  | k + 1, c => do
    let (_, c) ← c.resume
    goOn k c

/-- Runs a script and lets it go on a number of times. -/
def played (code : Bytecode) (k : Nat) (c : Context) : Action (Bool × Context) := do
  let (loaded, c) ← c.run code
  return (loaded, ← c.goOn k)

variable {c : Context} {h : Host} {code : Bytecode} {k : Nat}

theorem goOn_succ : c.goOn (k + 1) h =
    let told := c.resume h
    let later := told.value.2.goOn k told.host
    ⟨later.value, later.host, told.reports ++ later.reports⟩ := rfl

theorem played_eq : c.played code k h =
    let told := c.run code h
    let later := told.value.2.goOn k told.host
    ⟨(told.value.1, later.value), later.host, told.reports ++ later.reports⟩ := by
  simp [played, bind, pure]

/-- To let a script go on more often is to let it go on and then to let it go on again. -/
theorem goOn_add (k j : Nat) : c.goOn (k + j) h =
    let first := c.goOn k h
    let later := first.value.goOn j first.host
    ⟨later.value, later.host, first.reports ++ later.reports⟩ := by
  induction k generalizing c h with
  | zero => simp [goOn]
  | succ k ih =>
    rw [Nat.add_right_comm, goOn_succ, goOn_succ]
    simp only [ih, List.append_assoc]

/-- A script that does not wait is not let go on, and only the log tells of the
attempts. -/
theorem goOn_of_rests (rests : c.state ≠ some .suspended) (k : Nat) :
    ∃ ls : List LogLine, c.goOn k h = ⟨c, h, ls.map .line⟩ := by
  induction k with
  | zero => exact ⟨[], rfl⟩
  | succ k ih =>
    obtain ⟨ls, later⟩ := ih
    have exits := c.resumed h
    rw [goOn_succ]
    generalize c.resume h = told at exits ⊢
    cases exits with
    | absent none_ =>
      dsimp only
      exact ⟨ls, by rw [later]; rfl⟩
    | stepped t task waits => exact absurd (by rw [state, task, ← waits]; rfl) rests
    | ignored t task idle =>
      dsimp only
      exact ⟨.resumeIgnored c.id t.state :: ls, by rw [later]; rfl⟩

end Context

namespace Command

/-! ## The loop -/

/-- The loop of a command reads a number of lines and comes to an ending: each
read takes the next line, and is in vain where there is none. -/
inductive Plays : Stage → List Bytes → Nat → Ending → Prop where
  /-- The command is over. -/
  | ended {e : Ending} {host : Host} {lines : List Bytes} : Plays (.over e host) lines 0 e
  /-- The input is at its end. -/
  | closed (output : String) {p : Played} : Plays (.waiting output p) [] 1 (p.stop.1.after output)
  /-- A line is read. -/
  | line (output : String) {p : Played} {input : Bytes} {lines : List Bytes} {reads : Nat} {e : Ending}
      (later : Plays (p.line input) lines reads e) :
      Plays (.waiting output p) (input :: lines) (reads + 1) (e.after output)

/-- How a command ends with all of its input. -/
def Stage.ending (lines : List Bytes) : Stage → Ending
  | .over e _ => e
  | .waiting output p => (p.through lines).after output

/-- The loop comes to the ending of its command. -/
theorem Plays.ending {s : Stage} {lines : List Bytes} {reads : Nat} {e : Ending}
    (plays : Plays s lines reads e) : s.ending lines = e := by
  induction plays with
  | ended => rfl
  | closed => rfl
  | @line output p input lines reads e later ih =>
    rw [← ih, Stage.ending, Played.through]
    cases p.line input <;> rfl

/-- What goes wrong with a dialog that has come to a state, with or without a line
left. -/
def verdict (path : String) (state : Option TaskState) (hasLine : Bool) : Option CommandFault :=
  if state = some .failed then some (.scriptFailed path)
  else if state = some .suspended ∧ hasLine then some (.input .notText)
  else none

/-- Is there no line of text at an index? -/
def NoTextAt (lines : List Bytes) (k : Nat) : Prop :=
  ∀ line, lines[k]? = some line → ¬ line.IsValidUTF8

/-! ## What is printed -/

/-- The uses of the process among reports. -/
def uses (rs : List Report) : List ProcessUse :=
  rs.filterMap fun r => match r with
    | .process u => some u
    | _ => none

/-- The events among reports as they are printed. -/
def shownEvents (speaker : String) (rs : List Report) : String :=
  String.join ((Report.events rs).map fun e => shownEvent speaker e.kind)

@[simp] theorem uses_append (rs rs' : List Report) : uses (rs ++ rs') = uses rs ++ uses rs' := by
  simp [uses, List.filterMap_append]

@[simp] theorem uses_map_line (ls : List LogLine) : uses (ls.map .line) = [] := by
  induction ls with
  | nil => rfl
  | cons l ls ih => exact ih

@[simp] theorem shownEvents_append (speaker : String) (rs rs' : List Report) :
    shownEvents speaker (rs ++ rs') = shownEvents speaker rs ++ shownEvents speaker rs' := by
  simp [shownEvents]

/-- As long as the process is left alone just the events are printed. -/
theorem shownReports_of_unused {rs : List Report} (unused : uses rs = []) (speaker : String) :
    shownReports speaker rs = (shownEvents speaker rs, none) := by
  induction rs with
  | nil => rfl
  | cons r rs ih =>
    cases r with
    | process u => cases unused
    | line l =>
      rw [shownReports, ih unused]
      · simp [shownReport, shownEvents]
      · exact fun code same => nomatch same
    | event e =>
      rw [shownReports, ih unused]
      · simp [shownReport, shownEvents]
      · exact fun code same => nomatch same

/-- A stage behind reports that print nothing. -/
theorem Stage.behind_of_silent {rs : List Report} (unused : uses rs = []) {speaker : String}
    (silent : shownEvents speaker rs = "") (host : Host) (s : Stage) : s.behind speaker rs host = s := by
  cases s <;> simp [Stage.behind, Ending.behind, shownReports_of_unused unused, silent, Ending.after]

theorem Ending.after_after (before output : String) (e : Ending) :
    (e.after output).after before = e.after (before ++ output) := by
  simp [Ending.after, String.append_assoc]

@[simp] theorem Ending.output_after (output : String) (f : Option CommandFault) :
    ((Ending.of f).after output).output = output := by
  cases f <;> simp [Ending.of, Ending.after, Ending.success, Ending.failure]

theorem Ending.code_of_ne_zero {output : String} {f : Option CommandFault} :
    ((Ending.of f).after output).code ≠ 0 ↔ f.isSome := by
  cases f <;> simp [Ending.of, Ending.after, Ending.success, Ending.failure]

theorem verdict_isSome {path : String} {state : Option TaskState} {hasLine : Bool} :
    (verdict path state hasLine).isSome ↔
      state = some .failed ∨ state = some .suspended ∧ hasLine = true := by
  unfold verdict
  split
  · next failed => simp [failed]
  · next sound => split <;> simp_all

theorem NoTextAt.of_append {lines more : List Bytes} {k : Nat} (none_ : NoTextAt (lines ++ more) k) :
    NoTextAt lines k := fun line there =>
  none_ line (by rw [List.getElem?_append_left (List.getElem?_eq_some_iff.1 there).1, there])

theorem noTextAt_length (lines : List Bytes) : NoTextAt lines lines.length := fun line there => by
  rw [List.getElem?_eq_none (Nat.le_refl _)] at there
  cases there

theorem isLeast_zero {S : Set Nat} (here : 0 ∈ S) : IsLeast S 0 := ⟨here, fun _ _ => Nat.zero_le _⟩

theorem isLeast_succ {S T : Set Nat} {m : Nat} (least : IsLeast T m) (start : 0 ∉ S)
    (shift : ∀ k, k + 1 ∈ S ↔ k ∈ T) : IsLeast S (m + 1) := by
  refine ⟨(shift m).2 least.1, fun k mem => ?_⟩
  obtain _ | k := k
  · exact absurd mem start
  · exact Nat.succ_le_succ (least.2 ((shift k).1 mem))

theorem verdict_of_not_suspended {path : String} {state : Option TaskState}
    (rests : state ≠ some .suspended) (hasLine : Bool) :
    verdict path state hasLine = verdict path state false := by
  simp [verdict, rests]

/-- A dialog that leaves the process alone, however often it goes on and whenever its
conversation is thrown away. -/
structure Played.Unshared (p : Played) : Prop where
  playing : ∀ k, uses (p.context.goOn k p.host).reports = []
  leaving : ∀ k, uses ((p.context.goOn k p.host).value.drop (p.context.goOn k p.host).host).reports = []

namespace Played

variable {p : Played} {told : List Report} (alone : uses told = [])

/-- It is left alone behind a line of input too. -/
theorem Unshared.next (h : p.Unshared) :
    Unshared { p with
      context := (p.context.resume p.host).value.2, host := (p.context.resume p.host).host } where
  playing k := by
    have both := h.playing (k + 1)
    rw [Context.goOn_succ] at both
    exact (List.append_eq_nil_iff.1 (by simpa using both)).2
  leaving k := h.leaving (k + 1)

theorem leave_eq (h : p.Unshared) (fault : Option CommandFault) :
    (p.leave fault).1 = (Ending.of fault).after (shownEvents p.speaker (p.context.drop p.host).reports) := by
  have silent : uses (p.context.drop p.host).reports = [] := h.leaving 0
  simp only [leave, Ending.behind, shownReports_of_unused silent]

theorem stop_eq (h : p.Unshared) : p.stop.1 =
    (Ending.of (verdict p.path p.context.state false)).after
      (shownEvents p.speaker (p.context.drop p.host).reports) := by
  rw [stop, leave_eq h, verdict]
  by_cases failed : p.context.state = some .failed <;> simp [failed]

include alone

theorem stage_of_suspended (waits : p.context.state = some .suspended) :
    p.stage told = .waiting (shownEvents p.speaker told) p := by
  simp [stage, waits, Stage.behind, shownReports_of_unused alone]

theorem stage_of_not_suspended (rests : p.context.state ≠ some .suspended) :
    p.stage told = .over (p.stop.1.after (shownEvents p.speaker told)) p.stop.2 := by
  simp [stage, rests, Stage.behind, Ending.behind, shownReports_of_unused alone]

/-- The loop is over where the script does not wait. -/
theorem plays_of_not_suspended (h : p.Unshared) (rests : p.context.state ≠ some .suspended)
    (lines : List Bytes) : Plays (p.stage told) lines 0
      ((Ending.of (verdict p.path p.context.state lines[0]?.isSome)).after
        (shownEvents p.speaker (told ++ (p.context.drop p.host).reports))) := by
  rw [stage_of_not_suspended alone rests, stop_eq h, Ending.after_after, ← shownEvents_append,
    ← verdict_of_not_suspended rests lines[0]?.isSome]
  exact .ended

end Played

/-- How far the loop comes behind a step, what it prints and how it ends.  The
induction is on the lines. -/
theorem plays_stage (lines : List Bytes) (p : Played) (h : p.Unshared) (told : List Report)
    (alone : uses told = []) :
    ∃ m, IsLeast {k | NoTextAt lines k ∨ (p.context.goOn k p.host).value.state ≠ some .suspended} m ∧
      let end_ := p.context.goOn m p.host
      Plays (p.stage told) lines (m + if end_.value.state = some .suspended then 1 else 0)
        ((Ending.of (verdict p.path end_.value.state lines[m]?.isSome)).after
          (shownEvents p.speaker (told ++ end_.reports ++ (end_.value.drop end_.host).reports))) := by
  induction lines generalizing p told with
  | nil =>
    refine ⟨0, isLeast_zero (.inl fun line there => by cases there), ?_⟩
    by_cases waits : p.context.state = some .suspended
    · have ended := @Plays.closed (shownEvents p.speaker told) p
      rw [Played.stop_eq h, Ending.after_after, ← shownEvents_append] at ended
      rw [Played.stage_of_suspended alone waits]
      simpa [Context.goOn, pure, waits] using ended
    · simpa [Context.goOn, pure, waits] using Played.plays_of_not_suspended alone h waits []
  | cons input lines ih =>
    by_cases waits : p.context.state = some .suspended
    · rw [Played.stage_of_suspended alone waits]
      by_cases text : input.isText = true
      · have valid : input.IsValidUTF8 := Bytes.isText_iff.1 text
        let next := p.context.resume p.host
        have silent : uses next.reports = [] := by simpa [Context.goOn_succ, Context.goOn] using h.playing 1
        obtain ⟨m, least, plays⟩ :=
          ih { p with context := next.value.2, host := next.host } h.next next.reports silent
        refine ⟨m + 1, isLeast_succ least ?_ fun k => Iff.rfl, ?_⟩
        · rintro (none_ | rests)
          · exact none_ input rfl valid
          · exact rests waits
        have step : p.line input =
            Played.stage { p with context := next.value.2, host := next.host } next.reports := by
          rw [Played.line, if_pos text]
        have read := Plays.line (shownEvents p.speaker told) (step ▸ plays)
        rw [Ending.after_after, ← shownEvents_append, Nat.add_right_comm] at read
        simp only [Context.goOn_succ, List.append_assoc, List.getElem?_cons_succ] at read ⊢
        exact read
      · have invalid : ¬ input.IsValidUTF8 := fun valid => text (Bytes.isText_iff.2 valid)
        refine ⟨0, isLeast_zero (.inl fun line there => by cases there; exact invalid), ?_⟩
        have step : p.line input = .over (p.leave (some (.input .notText))).1
            (p.leave (some (.input .notText))).2 := by
          rw [Played.line, if_neg text]
        have ended : Plays (p.line input) lines 0 (p.leave (some (.input .notText))).1 := by
          rw [step]
          exact .ended
        have read := Plays.line (shownEvents p.speaker told) ended
        rw [Played.leave_eq h, Ending.after_after, ← shownEvents_append] at read
        simpa [Context.goOn, pure, waits, verdict] using read
    · refine ⟨0, isLeast_zero (.inr waits), ?_⟩
      simpa [Context.goOn, pure, waits] using Played.plays_of_not_suspended alone h waits (input :: lines)

/-! ## A whole run -/

/-- A script is started by a new context, or the log tells that it is not and the context
has no task. -/
theorem run_of_new {c : Context} (new : c.task = none) (code : Bytecode) (h : Host) :
    (c.run code h).value.1 = true ∨
      (c.run code h).value.1 = false ∧ (c.run code h).value.2.task = none ∧
        ∃ ls : List LogLine, (c.run code h).reports = ls.map .line := by
  have exits := c.ran code h
  generalize c.run code h = told at exits
  cases exits with
  | refused st state waits => simp [Context.state, new] at state
  | unstarted f m idle launched => exact .inr ⟨rfl, new, [_], rfl⟩
  | started => exact .inl rfl

section Begin

variable {config : Config} {script : Metadata} {session entity : UInt32} {code : Bytecode}
  {c : Context} {h : Host}

theorem task_of_made (made : (Context.create config ⟨session⟩ ⟨entity⟩ h).value = .ok c) :
    c.task = none := by
  have exits := Context.created config ⟨session⟩ ⟨entity⟩ h
  generalize Context.create config ⟨session⟩ ⟨entity⟩ h = told at exits made
  cases exits with
  | failed => cases made
  | made => cases made; rfl

theorem beginPlay_eq (coded : script.code = some code)
    (made : (Context.create config ⟨session⟩ ⟨entity⟩ h).value = .ok c) :
    beginPlay config script session entity h =
      let told := c.run code (Context.create config ⟨session⟩ ⟨entity⟩ h).host
      let p : Played := ⟨script.path, script.name, told.value.2, told.host⟩
      if told.value.1 then p.stage told.reports
      else .over (p.leave (some (.notLoaded script.path))).1 (p.leave (some (.notLoaded script.path))).2 := by
  simp only [beginPlay, coded, made]

/-- How far the loop comes that plays a script, what it prints and how it ends. -/
theorem plays_begin (coded : script.code = some code)
    (made : (Context.create config ⟨session⟩ ⟨entity⟩ h).value = .ok c) (lines : List Bytes)
    (playing : ∀ k, uses (c.played code k (Context.create config ⟨session⟩ ⟨entity⟩ h).host).reports = [])
    (leaving : ∀ k, uses ((c.played code k (Context.create config ⟨session⟩ ⟨entity⟩ h).host).value.2.drop
      (c.played code k (Context.create config ⟨session⟩ ⟨entity⟩ h).host).host).reports = []) :
    let h' := (Context.create config ⟨session⟩ ⟨entity⟩ h).host
    ∃ m, IsLeast {k | NoTextAt lines k ∨ (c.played code k h').value.2.state ≠ some .suspended} m ∧
      let told := c.played code m h'
      Plays (beginPlay config script session entity h) lines
        (m + if told.value.2.state = some .suspended then 1 else 0)
        ((Ending.of
          (if told.value.1 then verdict script.path told.value.2.state lines[m]?.isSome
            else some (.notLoaded script.path))).after
          (shownEvents script.name (told.reports ++ (told.value.2.drop told.host).reports))) := by
  have new := task_of_made made
  rw [beginPlay_eq coded made]
  generalize (Context.create config ⟨session⟩ ⟨entity⟩ h).host = h' at playing leaving
  simp only [Context.played_eq, uses_append, List.append_eq_nil_iff] at playing leaving ⊢
  let p : Played := ⟨script.path, script.name, (c.run code h').value.2, (c.run code h').host⟩
  have unshared : p.Unshared := ⟨fun k => (playing k).2, leaving⟩
  rcases run_of_new new code h' with loaded | ⟨unloaded, taskless, ls, logged⟩
  · simp only [loaded, if_true]
    exact plays_stage lines p unshared _ (playing 0).1
  · have rests : p.context.state ≠ some .suspended := by simp [p, Context.state, taskless]
    refine ⟨0, isLeast_zero (.inr rests), ?_⟩
    have ended := @Plays.ended (p.leave (some (.notLoaded script.path))).1
      (p.leave (some (.notLoaded script.path))).2 lines
    have ending := Played.leave_eq unshared (some (.notLoaded script.path))
    have printed : shownEvents script.name ((c.run code h').reports ++
        (p.context.drop p.host).reports) = shownEvents p.speaker (p.context.drop p.host).reports := by
      rw [shownEvents_append, logged, shownEvents, Report.events_map_line]
      rfl
    rw [← printed] at ending
    simpa [unloaded, Context.goOn, pure, rests, p, ending] using ended

end Begin

/-- A script that is looked at can tell no events. -/
theorem events_extract (config : Config) (path source : String) (h : Host) :
    Report.events (Metadata.extract config path source h).reports = [] := by
  have entry (m : Lua.Machine) (f : Option Lua.Value) (h : Host) :
      Report.events (Extraction.entryCode config path m f h).reports = [] := by
    cases f with
    | none => rfl
    | some v =>
      simp only [Extraction.entryCode]
      cases m.codeOf v with
      | none => rfl
      | some c =>
        dsimp only
        rcases Extraction.lostNames c with reason | ⟨_ | ⟨name, names⟩⟩ <;> rfl
  have left (m : Lua.Machine) (h : Host) : Report.events (Extraction.leave m h).reports = [] := by
    simp [Extraction.leave, Report.events]
  simp only [Metadata.extract, Action.bind_apply, Action.log_apply, Action.files_apply]
  rcases Extraction.evaluated config path source h.files with cause | ⟨e | returned, m⟩
  · rfl
  · simp [left]
  · dsimp only [Action.bind_apply]
    cases (Extraction.entryCode config path (Extraction.entry m (Extraction.descriptor m returned)).2
      (Extraction.entry m (Extraction.descriptor m returned)).1 h).value <;> simp [left, entry]

theorem events_read (config : Config) (path : String) (h : Host) :
    Report.events (Metadata.read config path h).reports = [] := by
  simp only [Metadata.read, Action.bind_apply, Action.files_apply]
  cases h.files.readText path with
  | error f => rfl
  | ok source => simp [events_extract]

/-- A run of the program that plays a script: its arguments ask for that, the
configuration they name is there, the script has code, and a conversation can
begin. -/
structure Opening (args : List String) (files : FileTree) where
  /-- What the arguments ask for. -/
  invocation : Invocation
  /-- The path of the script. -/
  path : String
  /-- The session that takes part. -/
  session : UInt32
  /-- The entity that takes part. -/
  entity : UInt32
  /-- The configuration. -/
  config : Config
  /-- The metadata of the script. -/
  script : Metadata
  /-- The code of the script. -/
  code : Bytecode
  /-- The conversation. -/
  context : Context
  /-- The arguments are understood. -/
  asked : Invocation.ofArguments args = .ok invocation
  /-- They ask to play the script. -/
  request : invocation.request = .play path session entity
  /-- The configuration is there. -/
  configured : (configOf invocation.config (.start files)).value = .ok config
  /-- The metadata is there. -/
  extracted :
    (Metadata.read config path (configOf invocation.config (.start files)).host).value = .ok script
  /-- It has code. -/
  coded : script.code = some code
  /-- The conversation can begin. -/
  made : (Context.create config ⟨session⟩ ⟨entity⟩
    (Metadata.read config path (configOf invocation.config (.start files)).host).host).value =
      .ok context

namespace Opening

variable {args : List String} {files : FileTree}

/-- The host behind the beginning of the conversation. -/
def host (o : Opening args files) : Host :=
  (Context.create o.config ⟨o.session⟩ ⟨o.entity⟩
    (Metadata.read o.config o.path (configOf o.invocation.config (.start files)).host).host).host

theorem host_eq (o : Opening args files) {told : Told (Except ExecutionFault Context)}
    (created : Context.create o.config ⟨o.session⟩ ⟨o.entity⟩
      (Metadata.read o.config o.path (configOf o.invocation.config (.start files)).host).host = told) :
    o.host = told.host :=
  congrArg Told.host created

/-- The script run and let go on a number of times. -/
def played (o : Opening args files) (k : Nat) : Told (Bool × Context) :=
  o.context.played o.code k o.host

/-- What is told when the script was let go on a number of times and its conversation is
thrown away. -/
def left (o : Opening args files) (k : Nat) : List Report :=
  ((o.played k).value.2.drop (o.played k).host).reports

/-- The script leaves the process alone: where it is looked at, however often it is let go
on, and whenever its conversation is thrown away. -/
structure Unshared (o : Opening args files) : Prop where
  reading : uses (Metadata.read o.config o.path
    (configOf o.invocation.config (.start files)).host).reports = []
  playing : ∀ k, uses (o.played k).reports = []
  leaving : ∀ k, uses (o.left k) = []

/-- A dialog begins where the script was looked at and has left the process alone. -/
theorem start_eq (o : Opening args files) (reading : uses (Metadata.read o.config o.path
      (configOf o.invocation.config (.start files)).host).reports = []) (size : Nat → String) :
    o.invocation.start size files = beginPlay o.config o.script o.session o.entity
      (Metadata.read o.config o.path (configOf o.invocation.config (.start files)).host).host := by
  have silent : shownEvents "" (Metadata.read o.config o.path
      (configOf o.invocation.config (.start files)).host).reports = "" := by
    rw [shownEvents, events_read]
    rfl
  simp only [Invocation.start, o.configured, o.request, o.extracted]
  exact Stage.behind_of_silent reading silent _ _

/-- The run is that dialog with its input. -/
theorem ofRun_eq (o : Opening args files) (reading : uses (Metadata.read o.config o.path
      (configOf o.invocation.config (.start files)).host).reports = []) (size : Nat → String)
    (input : Bytes) : Ending.ofRun size args files input =
      (beginPlay o.config o.script o.session o.entity
        (Metadata.read o.config o.path (configOf o.invocation.config (.start files)).host).host).ending
        (inputLines input) := by
  rw [← o.start_eq reading size]
  simp only [Ending.ofRun, o.asked]
  rfl

/-- If the script is started, the run goes on from its first step. -/
theorem ofRun_of_started (o : Opening args files) (reading : uses (Metadata.read o.config o.path
      (configOf o.invocation.config (.start files)).host).reports = [])
    (loaded : (o.played 0).value.1 = true) (size : Nat → String) (input : Bytes) :
    Ending.ofRun size args files input =
      ((⟨o.script.path, o.script.name, (o.played 0).value.2, (o.played 0).host⟩ : Played).stage
        (o.played 0).reports).ending (inputLines input) := by
  have first : o.played 0 = o.context.run o.code o.host := by
    rw [played, Context.played_eq]
    simp [Context.goOn]
  rw [first] at loaded ⊢
  rw [o.ofRun_eq reading, beginPlay_eq o.coded o.made]
  exact congrArg (Stage.ending _) (if_pos loaded)

/-- To let the script go on more often only adds reports. -/
theorem reports_played (o : Opening args files) {k k' : Nat} (more : k ≤ k') :
    ∃ rest, (o.played k').reports = (o.played k).reports ++ rest := by
  obtain ⟨j, rfl⟩ := Nat.exists_eq_add_of_le more
  exact ⟨_, by simp only [played, Context.played_eq, Context.goOn_add, ← List.append_assoc]; rfl⟩

/-- How far a run of the program comes, what it prints and how it ends. -/
theorem plays (o : Opening args files) (unshared : o.Unshared) (size : Nat → String) (input : Bytes) :
    let lines := inputLines input
    ∃ m, IsLeast {k | NoTextAt lines k ∨ (o.played k).value.2.state ≠ some .suspended} m ∧
      let told := o.played m
      Ending.ofRun size args files input =
        (Ending.of
          (if told.value.1 then verdict o.script.path told.value.2.state lines[m]?.isSome
            else some (.notLoaded o.script.path))).after
          (shownEvents o.script.name (told.reports ++ o.left m)) ∧
        Plays (o.invocation.start size files) lines
          (m + if told.value.2.state = some .suspended then 1 else 0)
          (Ending.ofRun size args files input) := by
  intro lines
  obtain ⟨m, least, plays⟩ := plays_begin o.coded o.made lines unshared.playing unshared.leaving
  refine ⟨m, least, ?_, ?_⟩
  · rw [o.ofRun_eq unshared.reading]
    exact plays.ending
  · rw [o.ofRun_eq unshared.reading, o.start_eq unshared.reading, plays.ending]
    exact plays

/-- A script that does not wait is not let go on, and only the log tells of the
attempts. -/
theorem played_of_rests (o : Opening args files) {k : Nat}
    (rests : (o.played k).value.2.state ≠ some .suspended) (j : Nat) : ∃ ls : List LogLine,
    o.played (k + j) = ⟨(o.played k).value, (o.played k).host, (o.played k).reports ++ ls.map .line⟩ := by
  obtain ⟨ls, same⟩ := Context.goOn_of_rests rests j (h := (o.played k).host)
  refine ⟨ls, ?_⟩
  simp only [played, Context.played_eq, Context.goOn_add] at same ⊢
  simp only [same, List.append_assoc]

/-- The script leaves the process alone if it does until it is first let go on and is over
then. -/
theorem unshared_of_rests (o : Opening args files)
    (reading : uses (Metadata.read o.config o.path
      (configOf o.invocation.config (.start files)).host).reports = [])
    (rests : (o.played 1).value.2.state = some .completed)
    (first : uses (o.played 0).reports = [] ∧ uses (o.left 0) = [])
    (last : uses (o.played 1).reports = [] ∧ uses (o.left 1) = []) : o.Unshared := by
  have later := o.played_of_rests (k := 1) fun waits => by cases waits.symm.trans rests
  refine ⟨reading, fun k => ?_, fun k => ?_⟩
  · obtain _ | k := k
    · exact first.1
    · obtain ⟨ls, same⟩ := later k
      rw [Nat.add_comm, same, uses_append, last.1, uses_map_line]
      rfl
  · obtain _ | k := k
    · exact first.2
    · obtain ⟨ls, same⟩ := later k
      rw [Nat.add_comm, left, same]
      exact last.2

end Opening

/-- What the console makes of events: a line for each, with the name of the speaker. -/
structure Renders (speaker : String) (shown : EventKind → String) : Prop where
  message : ∀ text, shown (.message text) = "[" ++ speaker ++ "] " ++ text ++ "\n"
  advance : shown .advance = "  (press Enter to continue)\n"
  close : shown .close = "[" ++ speaker ++ " closes the dialog]\n"

theorem renders_shownEvent (speaker : String) : Renders speaker (shownEvent speaker) where
  message text := by simp [shownEvent, toString]
  advance := rfl
  close := by simp [shownEvent, toString]

variable {args : List String} {files : FileTree}

/-- What a run of the program prints and how it ends, for every input, if the script leaves
the process alone. -/
theorem ofRun_plays_as_far_as_input (size : Nat → String) (o : Opening args files)
    (unshared : o.Unshared) (input : Bytes) :
    let lines := inputLines input
    let run := Ending.ofRun size args files input
    ∃ m shown, IsLeast {k | NoTextAt lines k ∨ (o.played k).value.2.state ≠ some .suspended} m ∧
      Renders o.script.name shown ∧
      run.output = String.join ((Report.events ((o.played m).reports ++ o.left m)).map (shown ·.kind)) ∧
      (run.code ≠ 0 ↔ (o.played m).value.1 = false ∨ (o.played m).value.2.state = some .failed ∨
        (o.played m).value.2.state = some .suspended ∧ m < lines.length) ∧
      (∃ reads, Plays (o.invocation.start size files) lines reads run ∧
        reads = m + (if (o.played m).value.2.state = some .suspended then 1 else 0) ∧
        reads ≤ lines.length + 1) ∧
      ∀ more, input.data.toList.getLast? = some 10 →
        ∃ rest, (Ending.ofRun size args files (input ++ more)).output =
          String.join ((Report.events (o.played m).reports).map (shown ·.kind)) ++ rest := by
  intro lines run
  obtain ⟨m, least, ending, plays⟩ := o.plays unshared size input
  have ends : m ≤ lines.length := least.2 (.inl (noTextAt_length lines))
  refine ⟨m, shownEvent o.script.name, least, renders_shownEvent _, ?_, ?_, ⟨_, plays, rfl, ?_⟩, ?_⟩
  · rw [show run = _ from ending, Ending.output_after]
    rfl
  · rw [show run = _ from ending, Ending.code_of_ne_zero]
    split
    · next loaded => simp [loaded, verdict_isSome, lines]
    · next unloaded => simp [unloaded]
  · split <;> omega
  · intro more ended
    obtain ⟨m', least', ending', -⟩ := o.plays unshared size (input ++ more)
    rw [inputLines_append (.inr ended)] at least'
    have further : m ≤ m' := least'.mono least fun k stops => stops.imp_left NoTextAt.of_append
    obtain ⟨rest, added⟩ := o.reports_played further
    rw [ending', Ending.output_after, added, List.append_assoc, shownEvents_append]
    exact ⟨_, rfl⟩

/-! ## A greeting -/

/-- The files that hold just the source of one script. -/
def soloFiles (source : String) : FileTree :=
  FileTree.empty.add (.ofText "ana.lua") (.file (.ofText source))

/-- What comes of looking at a script that is alone. -/
def soloRead (source : String) : Told (Except CompileFault Metadata) :=
  Metadata.extract .default "ana.lua" source (.start (soloFiles source))

theorem read_solo (source : String) :
    Metadata.read .default "ana.lua" (.start (soloFiles source)) = soloRead source := by
  have plain : "ana.lua".any (· == '\x00') = false := by cbv
  have there : (soloFiles source).read (.ofText "ana.lua") = .ok (.ofText source) := rfl
  have text : (soloFiles source).readText "ana.lua" = .ok source := by
    rw [FileTree.readText, plain]
    simp [there, Bytes.isText_iff, Bytes.isValidUTF8_ofText]
  rw [Metadata.read, Action.bind_apply, Action.files_apply]
  simp [Host.start, text, soloRead]

theorem uses_read_solo {source : String} (reading : uses (soloRead source).reports = []) :
    uses (Metadata.read .default "ana.lua" (.start (soloFiles source))).reports = [] := by
  rw [read_solo]
  exact reading

/-- What the arguments ask for that name the script. -/
theorem ofArguments_solo : Invocation.ofArguments ["run", "ana.lua"] =
    .ok ⟨none, .play "ana.lua" 1 1⟩ :=
  ok_of_toOption (by decide +kernel)

/-- The host when its conversation has begun. -/
def soloHost (source : String) : Host := ⟨⟨(soloRead source).host.next.val + 1⟩, (soloRead source).host.files⟩

section Solo

variable {source : String} {script : Metadata} {code : Bytecode} {c : Context}
  (extracted : (soloRead source).value.toOption = some script) (coded : script.code = some code)
  (made : Context.furnish .default ⟨1⟩ ⟨1⟩ (soloRead source).host = some c)

include extracted in
theorem extracted_solo :
    (Metadata.read .default "ana.lua" (.start (soloFiles source))).value = .ok script := by
  rw [read_solo]
  exact ok_of_toOption extracted

include made in
theorem create_solo : Context.create .default ⟨1⟩ ⟨1⟩
    (Metadata.read .default "ana.lua" (.start (soloFiles source))).host =
      ⟨.ok c, soloHost source, [.line (.created (soloRead source).host.next ⟨1⟩ ⟨1⟩)]⟩ := by
  rw [read_solo]
  exact Context.create_of_furnish made

/-- A script that is alone can be played if it has code and a conversation can begin. -/
def Opening.solo : Opening ["run", "ana.lua"] (soloFiles source) :=
  ⟨⟨none, .play "ana.lua" 1 1⟩, "ana.lua", 1, 1, .default, script, code, c, ofArguments_solo, rfl, rfl,
    extracted_solo extracted, coded, congrArg Told.value (create_solo made)⟩

theorem Opening.host_solo : (Opening.solo extracted coded made).host = soloHost source := by
  rw [Opening.host_eq (Opening.solo extracted coded made) (create_solo made)]

theorem Opening.played_solo (k : Nat) :
    (Opening.solo extracted coded made).played k = c.played code k (soloHost source) := by
  rw [played, host_solo]
  rfl

end Solo

/-- A script that says two things, the second one when it is let go on. -/
def greeting : String :=
  "name = 'Ana'\nfunction script()\n  mes('Hi')\n  next()\n  mes('Bye')\nend\n"

/-- What the greeting comes to: a dialog that waits and then is over, with nothing done to
the process. -/
theorem greeting_played :
    (do
      let script ← (soloRead greeting).value.toOption
      let code ← script.code
      let c ← Context.furnish .default ⟨1⟩ ⟨1⟩ (soloRead greeting).host
      let first := c.played code 0 (soloHost greeting)
      let last := c.played code 1 (soloHost greeting)
      return ((uses (soloRead greeting).reports, uses first.reports, uses (first.value.2.drop first.host).reports),
        uses last.reports, uses (last.value.2.drop last.host).reports, last.value.2.state)) =
      some (([], [], []), [], [], some .completed) := by
  decide +kernel

/-- The greeting can be played, and leaves the process alone. -/
theorem exists_opening : ∃ o : Opening ["run", "ana.lua"] (soloFiles greeting), o.Unshared := by
  obtain ⟨script, extracted, later⟩ := Option.bind_eq_some_iff.1 greeting_played
  obtain ⟨code, coded, later⟩ := Option.bind_eq_some_iff.1 later
  obtain ⟨c, made, known⟩ := Option.bind_eq_some_iff.1 later
  simp only [pure, Option.some.injEq, Prod.mk.injEq] at known
  obtain ⟨⟨reading, first, left⟩, last, left', rests⟩ := known
  rw [← Opening.played_solo extracted coded made] at first left last left' rests
  exact ⟨_, Opening.unshared_of_rests _ (uses_read_solo reading) rests ⟨first, left⟩ ⟨last, left'⟩⟩

theorem ofRun_plays_as_far_as_input_greeting :
    ∃ o : Opening ["run", "ana.lua"] (soloFiles greeting), o.Unshared ∧ ∃ m shown,
      IsLeast {k | NoTextAt (inputLines (.ofText "\n")) k ∨
        (o.played k).value.2.state ≠ some .suspended} m ∧
      Renders o.script.name shown ∧
      (Ending.ofRun toString ["run", "ana.lua"] (soloFiles greeting) (.ofText "\n")).output =
        String.join ((Report.events ((o.played m).reports ++ o.left m)).map (shown ·.kind)) := by
  obtain ⟨o, unshared⟩ := exists_opening
  obtain ⟨m, shown, least, renders, output, -⟩ :=
    ofRun_plays_as_far_as_input toString o unshared (.ofText "\n")
  exact ⟨o, unshared, m, shown, least, renders, output⟩

/-! ## A script that prints -/

/-- A script that writes to the standard output itself. -/
def printing : String := "function script() print('x') end\n"

/-- It is over at once, and there are no events, but something is printed. -/
theorem printing_played :
    (do
      let script ← (soloRead printing).value.toOption
      let code ← script.code
      let c ← Context.furnish .default ⟨1⟩ ⟨1⟩ (soloRead printing).host
      let told := c.played code 0 (soloHost printing)
      let p : Played := ⟨script.path, script.name, told.value.2, told.host⟩
      return ((uses (soloRead printing).reports, Report.events told.reports, told.value.1),
        told.value.2.state, ((p.stage told.reports).ending []).output)) =
      some (([], [], true), some .completed, "x\n") := by
  decide +kernel

/-- So what is printed is more than its events: it has none, however often it is let go
on. -/
theorem printing_is_seen : ∃ o : Opening ["run", "ana.lua"] (soloFiles printing),
    (∀ m, Report.events (o.played m).reports = []) ∧
      (Ending.ofRun toString ["run", "ana.lua"] (soloFiles printing) ByteArray.empty).output = "x\n" := by
  obtain ⟨script, extracted, later⟩ := Option.bind_eq_some_iff.1 printing_played
  obtain ⟨code, coded, later⟩ := Option.bind_eq_some_iff.1 later
  obtain ⟨c, made, known⟩ := Option.bind_eq_some_iff.1 later
  simp only [pure, Option.some.injEq, Prod.mk.injEq] at known
  obtain ⟨⟨reading, silent, loaded⟩, rests, output⟩ := known
  rw [← Opening.played_solo extracted coded made] at silent loaded rests output
  let o := Opening.solo extracted coded made
  refine ⟨o, fun m => ?_, ?_⟩
  · obtain ⟨ls, same⟩ := o.played_of_rests (k := 0) (fun waits => by cases waits.symm.trans rests) m
    rw [← Nat.zero_add m, same, Report.events_append, Report.events_map_line, List.append_nil]
    exact silent
  · rw [o.ofRun_of_started (uses_read_solo reading) loaded]
    exact output

end Command

end NpcDialog
