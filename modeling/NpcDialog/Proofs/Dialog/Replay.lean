import Mathlib.Data.List.Forall2
import NpcDialog.Proofs.Dialog.Lifetimes

/-!
# Replay is the same for everyone

One script can be shared by any number of interactions, since it cannot find out in which
of them it runs.  Two contexts that are asked for the same things, and find the same
files, show the same at every request, whoever takes part in them and whatever their
numbers are; the events are the same up to the session and the entity.

* `Moment`, `Context.replay` — what is seen of a new context at each request.
* `Moment.ascribe` — the same with others who take part.
* `replay_ascribed` — the result.
-/

namespace NpcDialog

/-- An event that is ascribed to others if it is one between a session and an entity. -/
def Event.ascribe (s : SessionId) (e : EntityId) (s' : SessionId) (e' : EntityId)
    (ev : Event) : Event :=
  if ev.session = s ∧ ev.entity = e then ⟨s', e', ev.kind⟩ else ev

/-- What is seen of a context at a request. -/
structure Moment where
  /-- The answer. -/
  answer : Answer
  /-- The state that its script has come to. -/
  state : Option TaskState
  /-- How often the script was suspended. -/
  suspensions : Nat
  /-- The files as it leaves them. -/
  files : FileTree
  /-- The events. -/
  events : List Event

/-- A moment with events that are ascribed to others. -/
def Moment.ascribe (s : SessionId) (e : EntityId) (s' : SessionId) (e' : EntityId)
    (x : Moment) : Moment :=
  { x with events := x.events.map (Event.ascribe s e s' e') }

/-- Requests that are made of two contexts are alike: the same is asked for while the
files are the same.  Others may have taken any numbers. -/
def Alike (p q : Host × Request) : Prop := p.1.files = q.1.files ∧ p.2 = q.2

/-- The events of a pair are the same if those of the one side are ascribed to the
other. -/
theorem PairedReports.events_ascribed {s : SessionId} {e : EntityId} {s' : SessionId}
    {e' : EntityId} {rs rs' : List Report} (h : PairedReports s e s' e' rs rs') :
    (Report.events rs).map (Event.ascribe s e s' e') = Report.events rs' := by
  rw [h.left.events_eq, h.right.events_eq, h.kinds, List.map_map]
  refine List.map_congr_left fun kind _ => ?_
  simp [Event.ascribe]

namespace Context

/-- What is seen of a context at a request. -/
def moment (c : Context) (h : Host) (q : Request) : Moment :=
  let told := c.serve q h
  ⟨told.value.1, told.value.2.state, told.value.2.suspensions, told.host.files,
    Report.events told.reports⟩

/-- What is seen of a context at one request after the other. -/
def moments (c : Context) : List (Host × Request) → List Moment
  | [] => []
  | (h, q) :: rest => c.moment h q :: (c.serve q h).value.2.moments rest

/-- What is seen of a context that is made and then asked for one thing after the other,
if it can be made. -/
def replay (config : Config) (s : SessionId) (e : EntityId) (h : Host)
    (requests : List (Host × Request)) : Except ExecutionFault (List Moment) :=
  (create config s e h).value.map fun c => c.moments requests

variable {s : SessionId} {e : EntityId} {s' : SessionId} {e' : EntityId} {c d : Context}

theorem Twins.suspensions (h : Twins s e s' e' c d) : c.suspensions = d.suspensions := by
  rw [Context.suspensions, Context.suspensions, h.task]

/-- At a request twins show the same, and they stay twins. -/
theorem Twins.moment (twins : Twins s e s' e' c d) {h h' : Host} (files : h.files = h'.files)
    (q : Request) :
    (c.moment h q).ascribe s e s' e' = d.moment h' q ∧
      Twins s e s' e' (c.serve q h).value.2 (d.serve q h').value.2 := by
  obtain ⟨⟨answer, again⟩, files, told⟩ := matches_serve twins q h h' files
  refine ⟨?_, again⟩
  simp only [Context.moment, Moment.ascribe, Moment.mk.injEq]
  exact ⟨answer, again.state, again.suspensions, files, told.events_ascribed⟩

/-- The induction is on the requests; the contexts stay twins. -/
theorem Twins.moments (twins : Twins s e s' e' c d) {requests requests' : List (Host × Request)}
    (alike : List.Forall₂ Alike requests requests') :
    (c.moments requests).map (Moment.ascribe s e s' e') = d.moments requests' := by
  induction alike generalizing c d with
  | nil => rfl
  | @cons p q rest rest' same _ ih =>
    obtain ⟨h, request⟩ := p
    obtain ⟨h', request'⟩ := q
    obtain ⟨files, rfl⟩ : h.files = h'.files ∧ request = request' := same
    obtain ⟨now, again⟩ := twins.moment files request
    simp only [Context.moments, List.map_cons]
    rw [now, ih again]

end Context

/-- Replay is the same for everyone: two new contexts that are asked for the same things,
and find the same files, cannot be made for the same reason, or give the same answers,
come to the same states, were suspended as often, do the same to the files and bring
about the same events at every request, once the session and the entity of the one are
replaced by those of the other. -/
theorem replay_ascribed (config : Config) (s : SessionId) (e : EntityId) (s' : SessionId)
    (e' : EntityId) {h h' : Host} (files : h.files = h'.files)
    {requests requests' : List (Host × Request)} (alike : List.Forall₂ Alike requests requests') :
    (Context.replay config s e h requests).map (List.map (Moment.ascribe s e s' e')) =
      Context.replay config s' e' h' requests' := by
  obtain ⟨made, -, -⟩ := Context.matches_create config s e s' e' h h' files
  unfold Context.replay
  generalize (Context.create config s e h).value = x at made
  generalize (Context.create config s' e' h').value = y at made
  cases made with
  | error f => rfl
  | ok twins => exact congrArg Except.ok (twins.moments alike)

/-- A script that says something, lets the player advance and is over. -/
def greeting : Lua.FunctionCode where
  params := 0
  isVararg := false
  registers := 2
  code := #[.getCapturedField 0 0 0, .loadConst 1 1, .call 0 (some 1) (some 0),
    .getCapturedField 0 0 2, .call 0 (some 0) (some 0), .return 0 (some 0) false]
  consts := #[.str (.ofText "mes"), .str (.ofText "Hello"), .str (.ofText "next")]
  captures := #[⟨false, 0⟩]
  notes := ⟨none, 0, #[], #[], #[]⟩
  children := []

/-- Two sessions hear it from two entities, while others take numbers. -/
theorem replay_ascribed_greeting :
    let requests (n : Nat) : List (Host × Request) :=
      [(⟨⟨n⟩, .empty⟩, .run ⟨greeting.archive⟩), (⟨⟨n + 3⟩, .empty⟩, .resume)]
    (Context.replay .default ⟨1⟩ ⟨2⟩ (.start .empty) (requests 2)).map
        (List.map (Moment.ascribe ⟨1⟩ ⟨2⟩ ⟨5⟩ ⟨6⟩)) =
      Context.replay .default ⟨5⟩ ⟨6⟩ ⟨⟨7⟩, .empty⟩ (requests 8) := by
  intro requests
  have alike : List.Forall₂ Alike (requests 2) (requests 8) :=
    .cons ⟨rfl, rfl⟩ (.cons ⟨rfl, rfl⟩ .nil)
  have files : (Host.start .empty).files = Host.files ⟨⟨7⟩, .empty⟩ := rfl
  exact replay_ascribed .default ⟨1⟩ ⟨2⟩ ⟨5⟩ ⟨6⟩ files alike

end NpcDialog
