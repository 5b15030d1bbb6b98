import NpcDialog.Proofs.Dialog.Attribution

/-!
# Contexts that differ in who takes part

Two contexts are twins if they have the same machine and the same script, and
differ only in their numbers and in who takes part.  Asked for the same things,
in hosts with the same files, they stay twins: they give the same answers, do
the same to the files, and tell the same kinds of events, each its own session
and entity.

* `Action.Matches` — two actions that do the same up to who takes part.
* `Context.Twins` — two contexts of which this is true for ever.
* `matches_create`, `matches_step`, `matches_run`, `matches_resume` — why.
-/

namespace NpcDialog

open Lua

section Definitions

variable (s : SessionId) (e : EntityId) (s' : SessionId) (e' : EntityId)

/-- Reports of two sides that differ in who takes part, and perhaps in the lines
of the log. -/
structure PairedReports (rs rs' : List Report) : Prop where
  /-- The events of the one. -/
  left : Attributed s e rs
  /-- The events of the other. -/
  right : Attributed s' e' rs'
  /-- The events are of the same kinds. -/
  kinds : Report.kinds rs = Report.kinds rs'

/-- Two actions that do the same, in hosts with the same files, up to who takes
part; their values are as `r` says. -/
def Action.Matches {α β : Type} (r : α → β → Prop) (x : Action α) (y : Action β) : Prop :=
  ∀ h h', h.files = h'.files →
    r (x h).value (y h').value ∧ (x h).host.files = (y h').host.files ∧
      PairedReports s e s' e' (x h).reports (y h').reports

/-- Two contexts that differ in who takes part. -/
structure Context.Twins (c d : Context) : Prop where
  /-- The session of the one. -/
  session : c.session = s
  /-- The entity of the one. -/
  entity : c.entity = e
  /-- The session of the other. -/
  session' : d.session = s'
  /-- The entity of the other. -/
  entity' : d.entity = e'
  /-- The script is the same. -/
  task : c.task = d.task
  /-- The machine is the same. -/
  machine : c.machine = d.machine
  /-- The conversations are a pair. -/
  conversation : Paired s e s' e' c.conversation d.conversation

/-- What comes of making two contexts: the same fault, or twins. -/
inductive Context.Made : Except ExecutionFault Context → Except ExecutionFault Context → Prop
  /-- A fault. -/
  | error (f : ExecutionFault) : Made (.error f) (.error f)
  /-- Twins. -/
  | ok {c d : Context} (h : Context.Twins s e s' e' c d) : Made (.ok c) (.ok d)

end Definitions

variable {s : SessionId} {e : EntityId} {s' : SessionId} {e' : EntityId}

namespace PairedReports

variable {rs rs' qs qs' : List Report}

theorem nil : PairedReports s e s' e' [] [] := ⟨.nil, .nil, rfl⟩

theorem append (h : PairedReports s e s' e' rs rs') (k : PairedReports s e s' e' qs qs') :
    PairedReports s e s' e' (rs ++ qs) (rs' ++ qs') :=
  ⟨by simp [h.left, k.left], by simp [h.right, k.right], by simp [h.kinds, k.kinds]⟩

/-- Lines of the log are no events. -/
theorem lines (ls ls' : List LogLine) : PairedReports s e s' e' (ls.map .line) (ls'.map .line) :=
  ⟨.lines ls, .lines ls', by simp [Report.kinds]⟩

/-- The events of a pair are equal if the same sides take part. -/
theorem events_eq (h : PairedReports s e s e rs rs') : Report.events rs = Report.events rs' := by
  rw [h.left.events_eq, h.right.events_eq, h.kinds]

end PairedReports

/-! ## Actions -/

namespace Action.Matches

variable {α β γ δ : Type} {r : α → β → Prop} {q : γ → δ → Prop}

theorem pure {a : α} {b : β} (h : r a b) :
    Matches s e s' e' r (Pure.pure a : Action α) (Pure.pure b : Action β) :=
  fun _ _ same => ⟨h, same, .nil⟩

theorem bind {x : Action α} {y : Action β} {f : α → Action γ} {g : β → Action δ}
    (hx : Matches s e s' e' r x y) (hf : ∀ a b, r a b → Matches s e s' e' q (f a) (g b)) :
    Matches s e s' e' q (x >>= f) (y >>= g) := by
  intro h h' same
  obtain ⟨values, same, told⟩ := hx h h' same
  obtain ⟨values', same', told'⟩ := hf _ _ values _ _ same
  exact ⟨values', same', told.append told'⟩

theorem tellAll {rs rs' : List Report} (h : PairedReports s e s' e' rs rs') :
    Matches s e s' e' Eq (Action.tellAll rs) (Action.tellAll rs') :=
  fun _ _ same => ⟨rfl, same, h⟩

theorem log (l l' : LogLine) : Matches s e s' e' Eq (Action.log l) (Action.log l') :=
  tellAll (.lines [l] [l'])

theorem takeId : Matches s e s' e' (fun _ _ => True) Action.takeId Action.takeId :=
  fun _ _ same => ⟨trivial, same, .nil⟩

theorem files : Matches s e s' e' Eq Action.files Action.files :=
  fun _ _ same => ⟨same, same, .nil⟩

theorem setFiles (files : FileTree) :
    Matches s e s' e' Eq (Action.setFiles files) (Action.setFiles files) :=
  fun _ _ _ => ⟨rfl, rfl, .nil⟩

end Action.Matches

open NpcDialog.Action (Matches)

/-! ## Contexts -/

namespace Context

variable {c d : Context}

theorem Twins.state (h : Twins s e s' e' c d) : c.state = d.state := by
  rw [Context.state, Context.state, h.task]

theorem Twins.isFinished (h : Twins s e s' e' c d) : c.isFinished = d.isFinished := by
  rw [Context.isFinished, Context.isFinished, h.state]

theorem Twins.withMachine (h : Twins s e s' e' c d) (m : Machine) :
    Twins s e s' e' { c with machine := m } { d with machine := m } :=
  ⟨h.session, h.entity, h.session', h.entity', h.task, rfl, h.conversation⟩

/-- New contexts are twins, or cannot be made for the same reason. -/
theorem matches_create (config : Config) (s : SessionId) (e : EntityId) (s' : SessionId)
    (e' : EntityId) :
    Matches s e s' e' (Made s e s' e') (create config s e) (create config s' e') := by
  refine .bind .files ?_
  rintro files _ rfl
  cases Machine.prepare config files with
  | error f => exact .pure (.error _)
  | ok m =>
    refine .bind .takeId fun c c' _ => ?_
    dsimp only
    split
    · exact .pure (.error _)
    · exact .bind (.log _ _) fun _ _ _ => .pure (.ok ⟨rfl, rfl, rfl, rfl, rfl, rfl, .between c c'⟩)

/-- A step of twins is the same turn of the same machine, in paired
conversations. -/
theorem matches_step (h : Twins s e s' e' c d) (t : Task) :
    Matches s e s' e' (Twins s e s' e') (c.step t) (d.step t) := by
  refine .bind .files ?_
  rintro files _ rfl
  obtain ⟨same, conversation⟩ :=
    respected_paired.turn t.thread (withFiles c.machine files) _ _ h.conversation.quiet
  rw [← h.machine]
  generalize turn t.thread (withFiles c.machine files) c.conversation.quiet = x at same conversation
  generalize turn t.thread (withFiles c.machine files) d.conversation.quiet = y at same conversation
  obtain ⟨⟨state, failure, m⟩, v⟩ := x
  obtain ⟨answer, w⟩ := y
  obtain rfl : (state, failure, m) = answer := same
  refine .bind (.setFiles _) fun _ _ _ => ?_
  refine .bind (.tellAll ⟨conversation.left, conversation.right, conversation.kinds⟩)
    fun _ _ _ => ?_
  refine .bind (.tellAll (.lines _ _)) fun _ _ _ => .pure ?_
  exact ⟨h.session, h.entity, h.session', h.entity', rfl, rfl, conversation⟩

/-- Twins give the same answer when they are to run a script. -/
theorem matches_run (h : Twins s e s' e' c d) (code : Bytecode) :
    Matches s e s' e' (fun x y => x.1 = y.1 ∧ Twins s e s' e' x.2 y.2) (c.run code)
      (d.run code) := by
  unfold run
  rw [← h.state, ← h.machine]
  split
  · exact .bind (.log _ _) fun _ _ _ => .pure ⟨rfl, h⟩
  · split
    · exact .bind (.log _ _) fun _ _ _ => .pure ⟨rfl, h.withMachine _⟩
    · exact .bind (matches_step (h.withMachine _) _) fun _ _ k => .pure ⟨rfl, k⟩

/-- Twins give the same answer when they are to go on. -/
theorem matches_resume (h : Twins s e s' e' c d) :
    Matches s e s' e' (fun x y => x.1 = y.1 ∧ Twins s e s' e' x.2 y.2) c.resume d.resume := by
  unfold resume
  rw [← h.task]
  split
  · exact .pure ⟨rfl, h⟩
  · split
    · exact .bind (matches_step h _) fun _ _ k => .pure ⟨k.state, k⟩
    · exact .bind (.log _ _) fun _ _ _ => .pure ⟨rfl, h⟩

/-- The machines of twins do the same at their ends. -/
theorem matches_release (h : Twins s e s' e' c d) : Matches s e s' e' Eq c.release d.release := by
  refine .bind .files ?_
  rintro files _ rfl
  obtain ⟨same, conversation⟩ :=
    respected_paired.release (withFiles c.machine files) _ _ h.conversation.quiet
  rw [← h.machine]
  generalize (withFiles c.machine files).release c.conversation.quiet = x at same conversation
  generalize (withFiles c.machine files).release d.conversation.quiet = y at same conversation
  obtain ⟨m, v⟩ := x
  obtain ⟨_, w⟩ := y
  obtain rfl := same
  exact .bind (.setFiles _) fun _ _ _ =>
    .tellAll ⟨conversation.left, conversation.right, conversation.kinds⟩

theorem matches_drop (h : Twins s e s' e' c d) : Matches s e s' e' Eq c.drop d.drop := by
  unfold drop
  rw [← h.state]
  dsimp only
  split
  · exact .bind (.log _ _) fun _ _ _ => matches_release h
  · exact matches_release h

end Context

end NpcDialog
