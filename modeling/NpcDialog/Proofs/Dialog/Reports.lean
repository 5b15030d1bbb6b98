import NpcDialog.Proofs.Machine.Related

/-!
# Events and lines among reports

Reports are events and lines of the log in the order in which they came about.
What a callback tells is one of each kind at most, and a machine by itself tells
nothing but what its callbacks do.

* `Attributed` — all events are of one session and one entity.
* `Report.kinds` — what the events are, without who they are from.
* `answer_cases` — what a callback tells, in two scopes at once.
* `respected_onlyCallbacks` — a machine writes no lines of its own.
-/

namespace NpcDialog

open Lua

/-! ## Events among reports -/

/-- All events among reports are of one session and one entity. -/
def Attributed (s : SessionId) (e : EntityId) (rs : List Report) : Prop :=
  ∀ ev ∈ Report.events rs, ev.session = s ∧ ev.entity = e

/-- The kinds of the events among reports. -/
def Report.kinds (rs : List Report) : List EventKind := (Report.events rs).map Event.kind

namespace Report

variable (rs rs' : List Report)

@[simp] theorem events_nil : events [] = [] := rfl

/-- Events keep the order in which they are told. -/
@[simp] theorem events_append : events (rs ++ rs') = events rs ++ events rs' := by
  simp [events, List.filterMap_append]

/-- A line in the log is no event. -/
@[simp] theorem events_line (l : LogLine) : events (.line l :: rs) = events rs := rfl

@[simp] theorem events_event (e : Event) : events (.event e :: rs) = e :: events rs := rfl

/-- Nor are several. -/
@[simp] theorem events_map_line (ls : List LogLine) : events (ls.map .line) = [] := by
  induction ls with
  | nil => rfl
  | cons l ls ih => rw [List.map_cons, events_line, ih]

/-- A use of the process is no event either. -/
@[simp] theorem events_process (u : ProcessUse) : events (.process u :: rs) = events rs := rfl

@[simp] theorem kinds_nil : kinds [] = [] := rfl

@[simp] theorem kinds_append : kinds (rs ++ rs') = kinds rs ++ kinds rs' := by simp [kinds]

@[simp] theorem kinds_line (l : LogLine) : kinds (.line l :: rs) = kinds rs := rfl

@[simp] theorem kinds_event (e : Event) : kinds (.event e :: rs) = e.kind :: kinds rs := rfl

@[simp] theorem kinds_process (u : ProcessUse) : kinds (.process u :: rs) = kinds rs := rfl

end Report

namespace Attributed

variable {s : SessionId} {e : EntityId} {rs rs' : List Report}

@[simp] theorem nil : Attributed s e [] := by simp [Attributed]

/-- Reports are attributed part by part. -/
@[simp] theorem append_iff :
    Attributed s e (rs ++ rs') ↔ Attributed s e rs ∧ Attributed s e rs' := by
  rw [Attributed, Report.events_append, List.forall_mem_append]
  rfl

/-- Lines are not attributed to anyone. -/
@[simp] theorem line_iff {l : LogLine} : Attributed s e (.line l :: rs) ↔ Attributed s e rs := by
  simp [Attributed]

/-- Neither are uses of the process. -/
@[simp] theorem process_iff {u : ProcessUse} :
    Attributed s e (.process u :: rs) ↔ Attributed s e rs := by
  simp [Attributed]

@[simp] theorem lines (ls : List LogLine) : Attributed s e (ls.map .line) := by simp [Attributed]

/-- An event is attributed to its own session and entity. -/
@[simp] theorem event_iff {ev : Event} :
    Attributed s e (.event ev :: rs) ↔ (ev.session = s ∧ ev.entity = e) ∧ Attributed s e rs := by
  simp [Attributed]

/-- Attributed events are known by their kinds. -/
theorem events_eq (h : Attributed s e rs) :
    Report.events rs = (Report.kinds rs).map fun k => ⟨s, e, k⟩ := by
  have same : ∀ ev ∈ Report.events rs, (⟨s, e, ev.kind⟩ : Event) = ev := by
    intro ev mem
    obtain ⟨rfl, rfl⟩ := h ev mem
    rfl
  have kept : (Report.events rs).map (fun ev => (⟨s, e, ev.kind⟩ : Event)) =
      (Report.events rs).map id :=
    List.map_congr_left same
  rw [Report.kinds, List.map_map]
  exact ((kept.trans (List.map_id _))).symm

end Attributed

/-! ## Lines of callbacks -/

/-- Is it a line that a callback writes? -/
def LogLine.isOfCallback : LogLine → Bool
  | .called _ _ _ _ | .noContext _ | .noParameters _ | .notText _ => true
  | _ => false

namespace Report

variable (rs rs' : List Report)

@[simp] theorem lines_nil : lines [] = [] := rfl

/-- Lines keep the order in which they are told. -/
@[simp] theorem lines_append : lines (rs ++ rs') = lines rs ++ lines rs' := by
  simp [lines, List.filterMap_append]

@[simp] theorem lines_line (l : LogLine) : lines (.line l :: rs) = l :: lines rs := rfl

/-- An event is no line. -/
@[simp] theorem lines_event (e : Event) : lines (.event e :: rs) = lines rs := rfl

/-- Nor is a use of the process. -/
@[simp] theorem lines_process (u : ProcessUse) : lines (.process u :: rs) = lines rs := rfl

@[simp] theorem lines_map_line (ls : List LogLine) : lines (ls.map .line) = ls := by
  induction ls with
  | nil => rfl
  | cons l ls ih => rw [List.map_cons, lines_line, ih]

end Report

/-- Nothing but callbacks has written lines in a conversation. -/
def Conversation.OnlyCallbacks (v : Conversation) : Prop :=
  ∀ l ∈ Report.lines v.reports.toList, l.isOfCallback

/-- One more report of a callback. -/
theorem Conversation.OnlyCallbacks.tell {v : Conversation} (h : v.OnlyCallbacks) {r : Report}
    (hr : ∀ l ∈ Report.lines [r], l.isOfCallback) : (v.tell r).OnlyCallbacks := by
  intro l mem
  rw [Conversation.tell, Array.toList_push, Report.lines_append, List.mem_append] at mem
  exact mem.elim (h l) (hr l)

/-! ## What a callback tells -/

/-- In two scopes a callback's answer is the same line of the log, or an event of
the same kind. -/
theorem answer_cases (x y : InteractionScope) (k : Callback) (args : Array Value) :
    (∃ l b, l.isOfCallback ∧ x.answer k args = (.line l, b) ∧ y.answer k args = (.line l, b)) ∨
      ∃ kind b, x.answer k args = (.event ⟨x.session, x.entity, kind⟩, b) ∧
        y.answer k args = (.event ⟨y.session, y.entity, kind⟩, b) := by
  cases k with
  | message =>
    unfold InteractionScope.answer
    dsimp only
    cases args[0]? with
    | none => exact .inl ⟨_, _, rfl, rfl, rfl⟩
    | some v =>
      dsimp only
      cases Args.textOf? v with
      | none => exact .inl ⟨_, _, rfl, rfl, rfl⟩
      | some text => exact .inr ⟨_, _, rfl, rfl⟩
  | advance => exact .inr ⟨_, _, rfl, rfl⟩
  | close => exact .inr ⟨_, _, rfl, rfl⟩

/-- A machine writes no lines but those of callbacks. -/
theorem respected_onlyCallbacks : Respected fun v w => v = w ∧ v.OnlyCallbacks := by
  refine .of_invariant (fun m c args v h => ?_) ?_
  cases hs : m.scope? v with
  | none =>
    rw [Machine.invoke_of_none hs]
    exact h.tell (by simp [LogLine.isOfCallback])
  | some s =>
    rw [Machine.invoke_of_some hs]
    refine Conversation.OnlyCallbacks.tell (h.tell (by simp [LogLine.isOfCallback])) ?_
    rcases answer_cases s s c args with ⟨l, b, hl, ha, -⟩ | ⟨kind, b, ha, -⟩
    · simp [ha, hl]
    · simp [ha]
  · intro u v h
    exact h.tell (by simp)

end NpcDialog
