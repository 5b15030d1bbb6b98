import NpcDialog.Proofs.Dialog.History
import NpcDialog.Proofs.Dialog.Twins

/-!
# Events cannot be forged

Every context is a twin of itself.  That says that its handles stand for its own
session and its own entity and for nobody else's, and it stays so whatever
script the context is given and however often the script goes on.  So all events
of a context are of its session and its entity, and those that a manager brings
about are of the session that it was asked about and of the entity that this
session talks to.

* `Request`, `Context.serve` — what is asked of a context.
* `Context.lifetime` — everything that a context ever tells.
* `Manager.Own` — all contexts of a manager are their sessions' own.
* `events_cannot_be_forged` — the result.
-/

namespace NpcDialog

/-! ## Contexts -/

/-- Something that a context is asked for. -/
inductive Request where
  /-- To run a script. -/
  | run (code : Bytecode)
  /-- To let its script go on. -/
  | resume

/-- The answer to a request. -/
inductive Answer where
  /-- To one to run a script. -/
  | ran (accepted : Bool)
  /-- To one to let a script go on. -/
  | resumed (state : Option TaskState)
  deriving DecidableEq

namespace Context

/-- Does what it is asked for. -/
def serve (c : Context) : Request → Action (Answer × Context)
  | .run code => do
    let (accepted, c) ← c.run code
    return (.ran accepted, c)
  | .resume => do
    let (state, c) ← c.resume
    return (.resumed state, c)

/-- What a context tells when it is asked for one thing after the other and thrown away at
last.  In between others may do to its host what they like. -/
def attend (c : Context) (last : Host) : List (Host × Request) → List Report
  | [] => (c.drop last).reports
  | (h, q) :: rest => (c.serve q h).reports ++ (c.serve q h).value.2.attend last rest

/-- What is told when a context is made, then asked for one thing after the other, and thrown
away at last. -/
def lifetime (config : Config) (s : SessionId) (e : EntityId) (h : Host)
    (requests : List (Host × Request)) (last : Host) : List Report :=
  let told := create config s e h
  told.reports ++ match told.value with
    | .ok c => c.attend last requests
    | .error _ => []

variable {s : SessionId} {e : EntityId} {s' : SessionId} {e' : EntityId} {c d : Context}

theorem matches_serve (h : Twins s e s' e' c d) (q : Request) :
    Action.Matches s e s' e' (fun x y => x.1 = y.1 ∧ Twins s e s' e' x.2 y.2) (c.serve q)
      (d.serve q) := by
  cases q with
  | run code =>
    refine .bind (matches_run h code) ?_
    rintro ⟨a, c⟩ ⟨b, d⟩ ⟨rfl, h⟩
    exact .pure ⟨rfl, h⟩
  | resume =>
    refine .bind (matches_resume h) ?_
    rintro ⟨a, c⟩ ⟨b, d⟩ ⟨rfl, h⟩
    exact .pure ⟨rfl, h⟩

/-- What is told at its end is of the two as well. -/
theorem attributed_drop (h : Twins s e s e c c) (host : Host) : Attributed s e (c.drop host).reports :=
  (matches_drop h host host rfl).2.2.left

/-- The induction is on the requests; the context stays a twin of itself. -/
theorem attributed_attend (h : Twins s e s e c c) (requests : List (Host × Request)) (last : Host) :
    Attributed s e (c.attend last requests) := by
  induction requests generalizing c with
  | nil => exact attributed_drop h last
  | cons request rest ih =>
    obtain ⟨host, q⟩ := request
    obtain ⟨⟨-, again⟩, -, told⟩ := matches_serve h q host host rfl
    exact Attributed.append_iff.2 ⟨told.left, ih again⟩

/-- A new context is a twin of itself. -/
theorem twins_create (config : Config) (s : SessionId) (e : EntityId) (h : Host) :
    Made s e s e (create config s e h).value (create config s e h).value ∧
      Attributed s e (create config s e h).reports := by
  obtain ⟨made, -, told⟩ := matches_create config s e s e h h rfl
  exact ⟨made, told.left⟩

/-- All events of a context are of its session and its entity. -/
theorem attributed_lifetime (config : Config) (s : SessionId) (e : EntityId) (h : Host)
    (requests : List (Host × Request)) (last : Host) :
    Attributed s e (lifetime config s e h requests last) := by
  obtain ⟨made, told⟩ := twins_create config s e h
  refine Attributed.append_iff.2 ⟨told, ?_⟩
  cases result : (create config s e h).value with
  | error f => exact .nil
  | ok c =>
    rw [result] at made
    cases made with
    | ok twins => exact attributed_attend twins requests last

end Context

/-! ## Managers -/

namespace Manager

variable {m : Manager} {s : SessionId} {c d : Context}

/-- Every context of a manager is a twin of itself, as one of the session under
which it is kept. -/
def Own (m : Manager) : Prop := ∀ k c, (k, c) ∈ m.active → c.Twins k c.entity k c.entity c

namespace Own

theorem erase (own : Own m) (s : SessionId) : Own (m.erase s) :=
  fun k c mem => own k c (m.mem_erase.1 mem).2

theorem insert (own : Own m) {e : EntityId} (twins : d.Twins s e s e d) : Own (m.insert s d) := by
  intro k c mem
  rcases m.mem_insert.1 mem with ⟨rfl, rfl⟩ | ⟨-, mem⟩
  · rw [twins.entity]
    exact twins
  · exact own k c mem

end Own

/-- A new context that was asked to run a script. -/
theorem twins_of_launch {config : Config} {e : EntityId} {h h₁ h₂ : Host} {code : Bytecode}
    {accepted : Bool} {rs qs : List Report} (made : Context.create config s e h = ⟨.ok c, h₁, rs⟩)
    (ran : c.run code h₁ = ⟨(accepted, d), h₂, qs⟩) :
    d.Twins s e s e d ∧ Attributed s e rs ∧ Attributed s e qs := by
  have first := Context.twins_create config s e h
  rw [made] at first
  obtain ⟨twins, told⟩ := first
  cases twins with
  | ok twins =>
    have second := Context.matches_run twins code h₁ h₁ rfl
    rw [ran] at second
    exact ⟨second.1.2, told, second.2.2.left⟩

theorem own_start (own : Own m) (s : SessionId) (e : EntityId) (script : Metadata) (h : Host) :
    Own (m.start s e script h).value.2 ∧ Attributed s e (m.start s e script h).reports := by
  have exit := m.started (s := s) e script h
  generalize m.start s e script h = told at exit
  cases exit with
  | busy taken => exact ⟨own, .nil⟩
  | mute free code => exact ⟨own, by simp⟩
  | unmade free known made =>
    have first := Context.twins_create m.config s e h
    rw [made] at first
    exact ⟨own, first.2⟩
  | unstarted free known made ran =>
    obtain ⟨twins, told, told'⟩ := twins_of_launch made ran
    exact ⟨own, by simp [told, told', Context.attributed_drop twins]⟩
  | finished free known made ran isOver =>
    obtain ⟨twins, told, told'⟩ := twins_of_launch made ran
    exact ⟨own, by simp [told, told', Context.attributed_drop twins]⟩
  | opened free known made ran isOver =>
    obtain ⟨twins, told, told'⟩ := twins_of_launch made ran
    exact ⟨own.insert twins, by simp [told, told']⟩

/-- The events among reports are of a session and of the entity it talks to, if
there is one; else there are none. -/
def OfInteraction (m : Manager) (s : SessionId) (rs : List Report) : Prop :=
  match m.entityOf s with
  | some e => Attributed s e rs
  | none => Report.events rs = []

theorem own_resume (own : Own m) (s : SessionId) (h : Host) :
    Own (m.resume s h).value.2 ∧ OfInteraction m s (m.resume s h).reports := by
  have exit := m.resumed s h
  generalize m.resume s h = told at exit
  unfold OfInteraction entityOf
  cases exit with
  | absent free => exact ⟨own, by simp [free]⟩
  | @ended c d st h' rs found went isOver =>
    have step := Context.matches_resume (own s c (m.mem_of_find? found)) h h rfl
    rw [went] at step
    exact ⟨own.erase s, by simp [found, step.2.2.left, Context.attributed_drop step.1.2]⟩
  | @waiting c d st h' rs found went isOver =>
    have step := Context.matches_resume (own s c (m.mem_of_find? found)) h h rfl
    rw [went] at step
    exact ⟨own.insert step.1.2, by simp [found, step.2.2.left]⟩

theorem own_abandon (own : Own m) (s : SessionId) (h : Host) :
    Own (m.abandon s h).value.2 ∧ OfInteraction m s (m.abandon s h).reports := by
  have exit := m.abandoned s h
  generalize m.abandon s h = told at exit
  unfold OfInteraction entityOf
  cases exit with
  | absent free => exact ⟨own, by simp [free]⟩
  | ended found =>
    exact ⟨own.erase s, by simp [found, Context.attributed_drop (own s _ (m.mem_of_find? found))]⟩

/-- The contexts of a manager are their sessions' own at any time. -/
theorem own_after (config : Config) (host : Host) (past : List Turn) :
    Own ((World.new config host).after past).manager := by
  refine World.after_induction (P := fun w _ => Own w.manager) (fun k c mem => ?_) ?_ past
  · exact absurd mem List.not_mem_nil
  · rintro w past ⟨n, files, call⟩ own
    cases call with
    | start s e script => simpa using (own_start own s e script _).1
    | resume s => simpa using (own_resume own s _).1
    | abandon s => simpa using (own_abandon own s _).1

end Manager

/-- Events cannot be forged: whatever a context is asked to run, its events are of
its session and its entity, those at its end as well; and whatever a manager was asked
before, those of an interaction's beginning are of the two that it begins between, and
those of its going on or its end are of the session and of the entity that the session
talks to. -/
theorem events_cannot_be_forged :
    (∀ config s e h requests last, Attributed s e (Context.lifetime config s e h requests last)) ∧
    ∀ config host past, let m := ((World.new config host).after past).manager
      (∀ s e script h, Attributed s e (m.start s e script h).reports) ∧
      (∀ s h, m.OfInteraction s (m.resume s h).reports) ∧
      ∀ s h, m.OfInteraction s (m.abandon s h).reports := by
  refine ⟨Context.attributed_lifetime, fun config host past => ?_⟩
  have own := Manager.own_after config host past
  exact ⟨fun s e script h => (Manager.own_start own s e script h).2,
    fun s h => (Manager.own_resume own s h).2, fun s h => (Manager.own_abandon own s h).2⟩

end NpcDialog
