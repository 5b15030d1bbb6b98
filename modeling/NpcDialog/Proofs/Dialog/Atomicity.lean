import NpcDialog.Proofs.Dialog.Guards
import NpcDialog.Proofs.Dialog.Lifetimes
import NpcDialog.Proofs.Dialog.Simulation

/-!
# Calls that come to nothing

A manager refuses to begin an interaction of a session that takes part in one, and
it cannot begin one if there is no room for a context or if the code cannot be
loaded.  A script without code has nothing to begin, and where there is no
interaction none can go on or end.  Such a call leaves the manager exactly as it
was, and nobody hears anything.  A context number may be lost by it, so a history
without the call is not quite the same; but its contexts are twins of those of the
other history, and all answers and events are equal.

* `Reply.isIdle` — the answers of calls that come to nothing.
* `Manager.Alike` — two managers whose interactions are twins.
* `Manager.matches_answer` — they give the same answers and stay alike.
* `World.remaining` — a history without some of the calls that come to nothing.
* `idle_calls_atomic` — the result.
-/

namespace NpcDialog

/-- Does the answer say that nothing has come of a call? -/
def Reply.isIdle : Reply → Bool
  | .started (.error _) | .started (.ok none) | .resumed none | .abandoned false => true
  | _ => false

/-- What is seen of a call: the call itself, the answer and the events. -/
def Record.seen (r : Record) : Call × Reply × List Event := (r.call, r.reply, Report.events r.reports)

/-! ## Managers whose interactions are twins -/

namespace Manager

/-- Interactions of the same session with the same entity whose contexts are twins. -/
def Same (p q : SessionId × Context) : Prop :=
  p.1 = q.1 ∧ p.2.Twins p.1 p.2.entity p.1 p.2.entity q.2

/-- Two managers all of whose interactions are the same. -/
structure Alike (m m' : Manager) : Prop where
  /-- Contexts are made in the same way. -/
  config : m.config = m'.config
  /-- The interactions are the same, one by one. -/
  active : List.Forall₂ Same m.active m'.active

/-- What is found in managers that are alike: nothing, or twins. -/
inductive Found (s : SessionId) : Option Context → Option Context → Prop
  /-- Nothing. -/
  | absent : Found s none none
  /-- Twins. -/
  | present {c d : Context} (twins : c.Twins s c.entity s c.entity d) : Found s (some c) (some d)

variable {l l' : List (SessionId × Context)}

/-- The induction is on the interactions. -/
theorem found_lookup (same : List.Forall₂ Same l l') (s : SessionId) :
    Found s (l.lookup s) (l'.lookup s) := by
  induction same with
  | nil => exact .absent
  | @cons p q l l' both _ ih =>
    obtain ⟨k, c⟩ := p
    obtain ⟨k', d⟩ := q
    obtain ⟨rfl, twins⟩ : k = k' ∧ c.Twins k c.entity k c.entity d := both
    by_cases here : s = k
    · subst here
      simpa using Found.present twins
    · simpa [List.lookup_cons, beq_eq_false_iff_ne.2 here] using ih

/-- The induction is on the interactions. -/
theorem same_without (same : List.Forall₂ Same l l') (s : SessionId) :
    List.Forall₂ Same (l.filter fun p => p.1 != s) (l'.filter fun p => p.1 != s) := by
  induction same with
  | nil => exact .nil
  | cons both _ ih =>
    rw [List.filter_cons, List.filter_cons, ← both.1]
    split
    · exact .cons both ih
    · exact ih

namespace Alike

variable {m m' : Manager} {s : SessionId} {c d : Context}

theorem found (h : Alike m m') (s : SessionId) : Found s (m.find? s) (m'.find? s) :=
  found_lookup h.active s

theorem isActive (h : Alike m m') (s : SessionId) : m.isActive s = m'.isActive s := by
  have found := h.found s
  unfold Manager.isActive
  generalize m.find? s = x, m'.find? s = y at found ⊢
  cases found <;> rfl

theorem erase (h : Alike m m') (s : SessionId) : Alike (m.erase s) (m'.erase s) :=
  ⟨h.config, same_without h.active s⟩

theorem insert {e : EntityId} (h : Alike m m') (twins : c.Twins s e s e d) :
    Alike (m.insert s c) (m'.insert s d) := by
  obtain ⟨config, active⟩ := h.erase s
  refine ⟨config, .cons ⟨rfl, ?_⟩ active⟩
  show c.Twins s c.entity s c.entity d
  rw [twins.entity]
  exact twins

end Alike

/-- A manager all of whose contexts are their sessions' own is like itself. -/
theorem Own.alike {m : Manager} (own : Own m) : Alike m m :=
  ⟨rfl, List.forall₂_same.2 fun p mem => ⟨rfl, own p.1 p.2 mem⟩⟩

end Manager

open NpcDialog.Action (Matches)

/-! ## The same calls of managers that are alike -/

namespace Manager

variable {m m' : Manager} (alike : Alike m m')
include alike

theorem matches_start (s : SessionId) (e : EntityId) (script : Metadata) :
    Matches s e s e (fun x y => x.1 = y.1 ∧ Alike x.2 y.2) (m.start s e script)
      (m'.start s e script) := by
  unfold start
  rw [← alike.isActive, ← alike.config]
  split
  · exact .pure ⟨rfl, alike⟩
  · cases script.code with
    | none => exact .bind (.log _ _) fun _ _ _ => .pure ⟨rfl, alike⟩
    | some code =>
      refine .bind (Context.matches_create m.config s e s e) fun made made' both => ?_
      cases both with
      | error f => exact .pure ⟨rfl, alike⟩
      | ok twins =>
        refine .bind (Context.matches_run twins code) ?_
        rintro ⟨accepted, c⟩ ⟨_, d⟩ ⟨rfl, twins⟩
        cases accepted with
        | false =>
          exact .bind (.log _ _) fun _ _ _ => .bind (Context.matches_drop twins) fun _ _ _ =>
            .pure ⟨rfl, alike⟩
        | true =>
          dsimp only
          rw [← twins.isFinished, ← twins.state]
          split
          · exact .bind (.log _ _) fun _ _ _ => .bind (Context.matches_drop twins) fun _ _ _ =>
              .pure ⟨rfl, alike⟩
          · exact .bind (.log _ _) fun _ _ _ => .pure ⟨rfl, alike.insert twins⟩

theorem matches_resume (s : SessionId) : ∃ e,
    Matches s e s e (fun x y => x.1 = y.1 ∧ Alike x.2 y.2) (m.resume s) (m'.resume s) := by
  have found := alike.found s
  unfold resume
  generalize m.find? s = x, m'.find? s = y at found ⊢
  cases found with
  | absent => exact ⟨⟨0⟩, .pure ⟨rfl, alike⟩⟩
  | @present c d twins =>
    refine ⟨c.entity, .bind (Context.matches_resume twins) ?_⟩
    rintro ⟨st, c'⟩ ⟨_, d'⟩ ⟨rfl, twins⟩
    dsimp only
    rw [← twins.isFinished]
    split
    · exact .bind (.log _ _) fun _ _ _ => .bind (Context.matches_drop twins) fun _ _ _ =>
        .pure ⟨rfl, alike.erase s⟩
    · exact .pure ⟨rfl, alike.insert twins⟩

theorem matches_abandon (s : SessionId) : ∃ e,
    Matches s e s e (fun x y => x.1 = y.1 ∧ Alike x.2 y.2) (m.abandon s) (m'.abandon s) := by
  have found := alike.found s
  unfold abandon
  generalize m.find? s = x, m'.find? s = y at found ⊢
  cases found with
  | absent => exact ⟨⟨0⟩, .pure ⟨rfl, alike⟩⟩
  | @present c d twins =>
    exact ⟨c.entity, .bind (Context.matches_drop twins) fun _ _ _ => .bind (.log _ _) fun _ _ _ =>
      .pure ⟨rfl, alike.erase s⟩⟩

/-- Managers that are alike give the same answers, bring about the same events and
stay alike. -/
theorem matches_answer (call : Call) : ∃ s e,
    Matches s e s e (fun x y => x.1 = y.1 ∧ Alike x.2 y.2) (m.answer call) (m'.answer call) := by
  cases call with
  | start s e script =>
    refine ⟨s, e, .bind (matches_start alike s e script) ?_⟩
    rintro ⟨answer, n⟩ ⟨_, n'⟩ ⟨rfl, alike⟩
    exact .pure ⟨rfl, alike⟩
  | resume s =>
    obtain ⟨e, both⟩ := matches_resume alike s
    refine ⟨s, e, .bind both ?_⟩
    rintro ⟨answer, n⟩ ⟨_, n'⟩ ⟨rfl, alike⟩
    exact .pure ⟨rfl, alike⟩
  | abandon s =>
    obtain ⟨e, both⟩ := matches_abandon alike s
    refine ⟨s, e, .bind both ?_⟩
    rintro ⟨answer, n⟩ ⟨_, n'⟩ ⟨rfl, alike⟩
    exact .pure ⟨rfl, alike⟩

end Manager

/-- The same call in two worlds whose managers are alike is seen alike. -/
theorem World.serve_alike {w w' : World} (alike : w.manager.Alike w'.manager) (t : Turn) :
    (w.serve t).1.seen = (w'.serve t).1.seen ∧
      (w.serve t).2.manager.Alike (w'.serve t).2.manager := by
  obtain ⟨s, e, both⟩ := Manager.matches_answer alike t.call
  obtain ⟨⟨same, alike⟩, -, told⟩ := both (w.hostAt t) (w'.hostAt t) rfl
  refine ⟨?_, alike⟩
  simp only [Record.seen, serve, same, told.events_eq]

/-! ## Calls that come to nothing -/

/-- A new context that does not run some code tells no events, and none when it is thrown
away. -/
theorem Context.events_of_unstarted {config : Config} {s : SessionId} {e : EntityId}
    {h h₁ h₂ : Host} {c d : Context} {code : Bytecode} {rs qs : List Report}
    (made : create config s e h = ⟨.ok c, h₁, rs⟩) (ran : c.run code h₁ = ⟨(false, d), h₂, qs⟩) :
    Report.events rs = [] ∧ Report.events qs = [] ∧ Report.events (d.drop h₂).reports = [] := by
  have first := created config s e h
  have second := c.ran code h₁
  have unmarked := unmarked_create (congrArg Told.value made)
  have silent (d : Context) (same : d.machine.heap.marked = []) :
      Report.events (d.drop h₂).reports = [] := by
    rw [drop_of_unmarked _ _ same]
    simp
  rw [made] at first
  rw [ran] at second
  cases first with
  | made m =>
    cases second with
    | refused st state waits => exact ⟨rfl, rfl, silent _ unmarked⟩
    | unstarted f m' idle launched =>
      obtain ⟨n, rfl⟩ := launch_error launched
      exact ⟨rfl, rfl, silent _ unmarked⟩

namespace Manager

variable {m : Manager} {s : SessionId}

/-- A call to begin an interaction that comes to nothing. -/
theorem start_idle (e : EntityId) (script : Metadata) (h : Host)
    (idle : (Reply.started (m.start s e script h).value.1).isIdle) :
    (m.start s e script h).value.2 = m ∧ Report.events (m.start s e script h).reports = [] := by
  have exit := m.started (s := s) e script h
  generalize m.start s e script h = told at exit idle
  cases exit with
  | busy taken => exact ⟨rfl, rfl⟩
  | mute free code => exact ⟨rfl, rfl⟩
  | unmade free known made =>
    have first := Context.created m.config s e h
    rw [made] at first
    cases first with
    | failed f n hn => exact ⟨rfl, rfl⟩
  | unstarted free known made ran =>
    obtain ⟨none_, none', left⟩ := Context.events_of_unstarted made ran
    exact ⟨rfl, by simp [none_, none', left]⟩
  | finished free known made ran isOver =>
    obtain ⟨st, -, state, -⟩ := (Context.launched made ran).rests rfl
    simp [Reply.isIdle, state] at idle
  | opened free known made ran isOver =>
    obtain ⟨st, -, state, -⟩ := (Context.launched made ran).rests rfl
    simp [Reply.isIdle, state] at idle

/-- A call to let an interaction go on that comes to nothing, if the scripts of all
interactions wait. -/
theorem resume_idle {next : Nat} {past : List Record} (sound : Sound m next past) (h : Host)
    (idle : (Reply.resumed (m.resume s h).value.1).isIdle) :
    (m.resume s h).value.2 = m ∧ Report.events (m.resume s h).reports = [] := by
  have exit := m.resumed s h
  generalize m.resume s h = told at exit idle
  cases exit with
  | absent free => exact ⟨rfl, rfl⟩
  | ended found went isOver =>
    have waits := (sound.entries s _ (m.mem_of_find? found)).waits
    obtain ⟨st, -, rfl, -⟩ := Context.state_of_resume waits went
    cases idle
  | waiting found went isOver =>
    have waits := (sound.entries s _ (m.mem_of_find? found)).waits
    obtain ⟨st, -, rfl, -⟩ := Context.state_of_resume waits went
    cases idle

/-- A call to end an interaction that comes to nothing. -/
theorem abandon_idle (h : Host) (idle : (Reply.abandoned (m.abandon s h).value.1).isIdle) :
    (m.abandon s h).value.2 = m ∧ Report.events (m.abandon s h).reports = [] := by
  have exit := m.abandoned s h
  generalize m.abandon s h = told at exit idle
  cases exit with
  | absent free => exact ⟨rfl, rfl⟩
  | ended found => cases idle

/-- Being refused because of another interaction goes before everything else, and
what has no code is the only thing that begins without an answer. -/
theorem start_answer (m : Manager) (s : SessionId) (e : EntityId) (script : Metadata) (h : Host) :
    ((∃ k, (m.start s e script h).value.1 = .error (.busy k)) ↔ m.isActive s = true) ∧
      (m.isActive s = true → (m.start s e script h).value.1 = .error (.busy s)) ∧
      (m.isActive s = false →
        ((m.start s e script h).value.1 = .ok none ↔ script.code = none)) := by
  have exit := m.started (s := s) e script h
  generalize m.start s e script h = told at exit
  cases exit with
  | busy taken => simp [taken]
  | mute free code => simp [free, code]
  | @unmade f h' rs free code known made =>
    have first := Context.created m.config s e h
    rw [made] at first
    cases first with
    | failed f n hn => simp [free, known]
  | unstarted free known made ran => simp [free, known]
  | finished free known made ran isOver =>
    obtain ⟨st, -, state, -⟩ := (Context.launched made ran).rests rfl
    simp [free, known, state]
  | opened free known made ran isOver =>
    obtain ⟨st, -, state, -⟩ := (Context.launched made ran).rests rfl
    simp [free, known, state]

end Manager

namespace World

variable {w w' : World}

/-- A call that comes to nothing leaves the manager as it was, and nobody hears
anything. -/
theorem serve_idle {past : List Record} (sound : Sound w.manager w.host.next.val past) (t : Turn)
    (idle : (w.serve t).1.reply.isIdle) :
    (w.serve t).2.manager = w.manager ∧ Report.events (w.serve t).1.reports = [] := by
  obtain ⟨n, files, call⟩ := t
  cases call with
  | start s e script =>
    simp only [serve_start] at idle ⊢
    exact Manager.start_idle e script _ idle
  | resume s =>
    simp only [serve_resume] at idle ⊢
    exact Manager.resume_idle sound _ idle
  | abandon s =>
    simp only [serve_abandon] at idle ⊢
    exact Manager.abandon_idle _ idle

/-! ## Histories without them -/

/-- What becomes of calls, the earliest first. -/
def replies (w : World) : List Turn → List Record
  | [] => []
  | t :: later => (w.serve t).1 :: (w.serve t).2.replies later

/-- Is it a call with a mark that comes to nothing? -/
def leavesOut (w : World) (x : Turn × Bool) : Bool := x.2 && (w.serve x.1).1.reply.isIdle

/-- The calls without those that come to nothing and have a mark, the earliest
first. -/
def remaining (w : World) : List (Turn × Bool) → List Turn
  | [] => []
  | x :: xs =>
    let rest := (w.serve x.1).2.remaining xs
    if w.leavesOut x then rest else x.1 :: rest

/-- What becomes of all calls but those that come to nothing and have a mark. -/
def remainingReplies (w : World) : List (Turn × Bool) → List Record
  | [] => []
  | x :: xs =>
    let rest := (w.serve x.1).2.remainingReplies xs
    if w.leavesOut x then rest else (w.serve x.1).1 :: rest

/-- What remains of a history is seen alike where nothing was left out and where the
calls were never made.  The induction is on the calls: one that is left out keeps
the manager of the one world, any other keeps the managers alike. -/
theorem seen_remaining {past : List Record} (sound : Sound w.manager w.host.next.val past)
    (alike : w.manager.Alike w'.manager) (xs : List (Turn × Bool)) :
    (w'.replies (w.remaining xs)).map Record.seen = (w.remainingReplies xs).map Record.seen := by
  induction xs generalizing w w' past with
  | nil => rfl
  | cons x xs ih =>
    have sound' := (sound_serve sound x.1).1
    by_cases out : w.leavesOut x = true
    · have idle : (w.serve x.1).1.reply.isIdle := (Bool.and_eq_true_iff.1 out).2
      obtain ⟨same, -⟩ := serve_idle sound x.1 idle
      have alike' : (w.serve x.1).2.manager.Alike w'.manager := by rwa [same]
      have rest := ih sound' alike'
      simpa only [remaining, remainingReplies, out, if_true] using rest
    · have kept : w.leavesOut x = false := by simpa using out
      obtain ⟨seen, alike'⟩ := serve_alike alike x.1
      have rest := ih sound' alike'
      simp only [remaining, remainingReplies, kept, Bool.false_eq_true, if_false, replies,
        List.map_cons, seen, rest]

end World

/-- Calls that come to nothing are atomic.  Whatever a manager was asked before, such
a call leaves all its interactions exactly as they were and brings about no event.
Whichever of them are left out of a history, all other calls get the same answers and
bring about the same events.  And a session that takes part in an interaction is
refused another one whatever the script is, while of the others just those are
answered with nothing whose script has no code. -/
theorem idle_calls_atomic (config : Config) (host : Host) (past : List Turn) :
    let w := (World.new config host).after past
    (∀ t, (w.serve t).1.reply.isIdle →
      (w.serve t).2.manager = w.manager ∧ Report.events (w.serve t).1.reports = []) ∧
    (∀ xs : List (Turn × Bool),
      (w.replies (w.remaining xs)).map Record.seen = (w.remainingReplies xs).map Record.seen) ∧
    ∀ s e script h, let answer := (w.manager.start s e script h).value.1
      ((∃ k, answer = .error (.busy k)) ↔ w.manager.isActive s = true) ∧
        (w.manager.isActive s = true → answer = .error (.busy s)) ∧
        (w.manager.isActive s = false → (answer = .ok none ↔ script.code = none)) := by
  intro w
  have sound := World.sound config host past
  have alike := (Manager.own_after config host past).alike
  exact ⟨fun t idle => World.serve_idle sound t idle, World.seen_remaining sound alike,
    w.manager.start_answer⟩

end NpcDialog
