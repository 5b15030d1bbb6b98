import NpcDialog.Proofs.Dialog.Guards
import NpcDialog.Proofs.Dialog.Tasks
import NpcDialog.Proofs.Machine.Through

/-!
# Suspension is not noticed

A script that is let go on whenever it is suspended does the same as if nothing suspended
it: the player hears the same, the script comes to the same end, and all that the machine
holds is the same in the end.  Each time it lets the player advance it is suspended once.

* `Context.runBy` — a script is started, with another way of running machines.
* `Context.runOut` — a script is started and let go on until it is over.
* `Context.PlaysPlainly` — only plain calls of `next` let the player advance.
* `Stands` — where the script is in a turn, next to a run that nothing suspends.
* `suspension_transparent` — the result.
* `Context.isPlain` — a test for scripts of which this holds.
-/

namespace NpcDialog

open Lua Lua.Machine

namespace Context

/-! ## Ways of running scripts -/

/-- A turn, with another way of running machines. -/
def turnBy (run : Runner) (thread : Nat) (m : Machine) :
    Conversing (TaskState × Option Failure × Machine) :=
  Machine.resume run thread #[] m.outside >>= took thread

/-- What a step does with what the turn came to. -/
def settle (c : Context) (t : Task) :
    (TaskState × Option Failure × Machine) × Conversation → Action Context
  | ((state, failure, m), conversation) => do
    Action.setFiles m.heap.files
    Action.tellAll conversation.reports.toList
    Action.tellAll ((c.outcome state failure).map .line)
    let suspensions := if state == .suspended then t.suspensions + 1 else t.suspensions
    return { c with task := some { t with state, suspensions }, machine := m, conversation }

theorem settle_apply (c : Context) (t : Task)
    (x : (TaskState × Option Failure × Machine) × Conversation) (h : Host) :
    c.settle t x h = ⟨{ c with
        task := some ⟨t.thread, x.1.1, if x.1.1 == .suspended then t.suspensions + 1 else t.suspensions⟩
        machine := x.1.2.2, conversation := x.2 },
      { h with files := x.1.2.2.heap.files },
      x.2.reports.toList ++ (c.outcome x.1.1 x.1.2.1).map .line⟩ := by
  obtain ⟨⟨state, failure, m⟩, v⟩ := x
  simp [settle]

/-- A step, with another way of running machines. -/
def stepBy (run : Runner) (c : Context) (t : Task) : Action Context := do
  c.settle t (turnBy run t.thread (withFiles c.machine (← Action.files)) c.conversation.quiet)

/-- Starts a script, with another way of running machines. -/
def runBy (run : Runner) (c : Context) (code : Bytecode) : Action (Bool × Context) := do
  match c.state.filter (fun s => !s.isTerminal) with
  | some state => do
    Action.log (.startRefused c.id state)
    return (false, c)
  | none =>
    match launch code c.machine with
    | (.error f, m) => do
      Action.log (f.line c.id)
      return (false, { c with machine := m })
    | (.ok thread, m) =>
      return (true, ← stepBy run { c with machine := m } ⟨thread, .created, 0⟩)

theorem stepBy_run (c : Context) (t : Task) : c.stepBy Machine.run t = c.step t := by
  funext h
  rw [step, stepBy, Action.bind_apply, Action.bind_apply, Action.files_apply, turn_eq]
  rfl

/-- Scripts are started with the way of running machines that there is. -/
theorem runBy_run (c : Context) (code : Bytecode) : c.runBy Machine.run code = c.run code := by
  cases idle : c.state.filter (fun s => !s.isTerminal) with
  | some state => simp only [runBy, run, idle]
  | none =>
    rcases launched : launch code c.machine with ⟨f | thread, m⟩
    · simp only [runBy, run, idle, launched]
    · simp only [runBy, run, idle, launched, stepBy_run]

/-- Starts a script and lets it go on while it is suspended, `n` times at most.  The answer
tells how often. -/
def runOut (c : Context) (code : Bytecode) (n : Nat) : Action (Nat × Context) := do
  let (_, c) ← c.run code
  c.finish n

/-- What is left of a script in a turn: the turn goes on in the machine `m`, for so many steps
at most, and then the script is let go on while it is suspended. -/
def playOn (c : Context) (t : Task) (outer : Machine) (steps : Nat) (m : Machine)
    (v : Conversation) (n : Nat) : Action (Nat × Context) := do
  let c ← c.settle t ((Machine.loop (runWithin (levels - 1)) steps m >>= fun x =>
    took t.thread (outer.outside.handBack x.1 x.2)) v)
  c.finish n

/-- A step is the rest of a turn that was just begun. -/
theorem step_eq {c : Context} {t : Task} {h : Host} {inner : Machine}
    (entered : (withFiles c.machine h.files).outside.entered t.thread #[] = .ok inner) (n : Nat) :
    (c.step t >>= fun c => c.finish n) h =
      c.playOn t (withFiles c.machine h.files) stepBudget inner c.conversation.quiet n h := by
  have turned : turn t.thread (withFiles c.machine h.files) =
      (Machine.loop (runWithin (levels - 1)) stepBudget inner >>= fun x =>
        took t.thread ((withFiles c.machine h.files).outside.handBack x.1 x.2)) := by
    rw [turn_eq]
    show Machine.resume Machine.run t.thread #[] (withFiles c.machine h.files).outside >>= _ = _
    rw [Machine.resume, entered, Machine.run_eq]
    rfl
  have settled : c.step t h = c.settle t (turn t.thread (withFiles c.machine h.files) c.conversation.quiet) h := by
    rw [← stepBy_run, stepBy, turn_eq]
    rfl
  rw [Action.bind_apply, settled, playOn, ← turned]
  rfl

theorem finish_of_rests {c : Context} (rests : c.state ≠ some .suspended) (n : Nat) :
    c.finish n = pure (0, c) := by
  cases n with
  | zero => rfl
  | succ n => simp [finish, rests]

/-- A script that is suspended is let go on. -/
theorem finish_of_suspended {c : Context} {t : Task} {h : Host} {inner : Machine}
    (task : c.task = some t) (waits : t.state = .suspended)
    (entered : (withFiles c.machine h.files).outside.entered t.thread #[] = .ok inner) (n : Nat) :
    c.finish (n + 1) h =
      (c.playOn t (withFiles c.machine h.files) stepBudget inner c.conversation.quiet n >>=
        fun x => pure (x.1 + 1, x.2)) h := by
  have state : c.state = some .suspended := by rw [Context.state, task, Option.map_some, waits]
  have resumed : c.resume h = ⟨((c.step t h).value.state, (c.step t h).value), (c.step t h).host,
      (c.step t h).reports⟩ := by
    simp [resume, task, waits]
  rw [finish, if_pos (by simp [state]), Action.bind_apply, resumed, Action.bind_apply, ← step_eq entered n]
  simp only [Action.bind_apply, Action.pure_apply, List.append_nil]

end Context

open Context

/-! ## Two runs side by side -/

namespace Lua.Machine

theorem handBack_congr {m n : Machine} (current : m.current = n.current) (depth : m.depth = n.depth)
    (held : m.held = n.held) (stop : Stop) (inner : Machine) :
    m.handBack stop inner = n.handBack stop inner := by
  unfold handBack
  rw [current, depth, held]

/-- A coroutine looks suspended after its turn only if the turn ended so. -/
theorem liveness_handBack {m inner : Machine} {stop : Stop} (other : inner.current ≠ m.current)
    (ends : ∀ vs deliver, stop ≠ .suspended vs deliver) :
    (m.handBack stop inner).2.liveness inner.current ≠ .suspended := by
  intro waits
  have lt := lt_of_suspended waits
  rw [size_handBack] at lt
  refine ((shut_iff _ _).1 ⟨stop.status, ?_, .inr ?_⟩).2 waits
  · rw [← status_eq, threads_handBack, threads_unpark, Array.getElem?_setIfInBounds_ne (Ne.symm other),
      threads_park, Array.getElem?_setIfInBounds_self_of_lt lt]
    rfl
  · cases stop with
    | suspended vs deliver => exact absurd rfl (ends vs deliver)
    | _ => rfl

end Lua.Machine

/-- A script whose coroutine is not suspended after its turn is over. -/
theorem Context.took_ended {m inner : Machine} {stop : Stop} (other : inner.current ≠ m.current)
    (ends : ∀ vs deliver, stop ≠ .suspended vs deliver) (v : Conversation) :
    (took inner.current (m.handBack stop inner) v).1.1 = .completed ∨
      (took inner.current (m.handBack stop inner) v).1.1 = .failed := by
  have rests := liveness_handBack other ends
  cases stop with
  | suspended vs deliver => exact absurd rfl (ends vs deliver)
  | failed f => exact .inr rfl
  | returned vs =>
    left
    show (if (m.handBack (.returned vs) inner).2.liveness inner.current == .suspended then
      TaskState.suspended else .completed) = .completed
    simp [rests]

/-- A turn of the script, in the machine `m`, next to a run that nothing suspends, which is at
`n`.  It was begun by the main thread as it was in `outer`; and the machine of the other run
is the same but for the record of turns, with all that was told in the turns before. -/
structure Stands (n₀ outer : Machine) (thread : Nat) (before : List Report) (m : Machine)
    (v : Conversation) (n : Machine) (w : Conversation) : Prop where
  begun : ∃ args inner, outer.outside.entered thread args = .ok inner ∧ Minds inner m
  there : outer.current < outer.threads.size
  main : n₀.statuses[outer.current]? = some .active
  shallow : n₀.depth = 1
  same : Veil.turns.Same m n
  continues : v.Continues before w

/-- A script that is let go on comes to the same as one that nothing suspends, and was
suspended each time it let the player advance. -/
structure EndsAs (t : Task) (before : List Report) (w : Conversation) (told : Told (Nat × Context))
    (x : (TaskState × Option Failure × Machine) × Conversation) : Prop where
  task : told.value.2.task = some ⟨t.thread, x.1.1, t.suspensions + UInt32.ofNat told.value.1⟩
  machine : Veil.turns.Same told.value.2.machine x.1.2.2
  events : Report.events before ++ Report.events told.reports = Report.events x.2.reports.toList
  times : w.advances + told.value.1 = x.2.advances
  ended : x.1.1 = .completed ∨ x.1.1 = .failed

namespace Stands

variable {n₀ outer m n : Machine} {v w : Conversation} {t : Task} {before : List Report}
variable (h : Stands n₀ outer t.thread before m v n w)
include h

theorem current : m.current = t.thread ∧ t.thread ≠ outer.current ∧ m.held = 0 := by
  obtain ⟨args, inner, begun, minds⟩ := h.begun
  obtain ⟨current, held, -⟩ := size_entered begun
  exact ⟨minds.current.trans current, (entered_eq begun).1, minds.held.trans held⟩

/-- Both runs make a step. -/
theorem step {n' : Machine} {w' : Conversation}
    (first : n.step (runWithin (levels - 1)) w = (.next n', w')) :
    ∃ m' v', m.step (runWithin (levels - 1)) v = (.next m', v') ∧
      Stands n₀ outer t.thread before m' v' n' w' := by
  obtain ⟨s, v', stepped, same, continues⟩ := h.same.step_continues _ h.continues first
  obtain ⟨args, inner, begun, minds⟩ := h.begun
  have seated := bracketed_minds.step (bracketed_minds.runWithin (levels - 1)) m v
  rw [stepped] at seated
  cases s with
  | stop s m' => cases same
  | next m' =>
    exact ⟨m', v', stepped, ⟨args, inner, begun, minds.trans seated.keeps⟩, h.there, h.main, h.shallow,
      Step.next.inj same, continues⟩

/-- Both runs end. -/
theorem ends {c : Context} {s : Stop} {n' O : Machine} {w' : Conversation} {host : Host}
    (last : n.step (runWithin (levels - 1)) w = (.stop s n', w'))
    (stops : ∀ vs deliver, s ≠ .suspended vs deliver) (silent : w'.advances = w.advances)
    (current : outer.current = O.current)
    (quiet : (took t.thread (O.outside.handBack s n') w').2.advances = w'.advances)
    (steps N : Nat) :
    EndsAs t before w (c.playOn t outer (steps + 1) m v N host)
      (took t.thread (O.outside.handBack s n') w') := by
  obtain ⟨s', v', stepped, same, continues⟩ := h.same.step_continues _ h.continues last
  cases s' with
  | next m' => cases same
  | stop s' m' =>
    obtain ⟨stop, machines⟩ := Step.stop.inj same
    rw [Veil.stop_turns, Veil.stop_turns] at stop
    subst stop
    have looped : Machine.loop (runWithin (levels - 1)) (steps + 1) m v = ((s', m'), v') := by
      rw [Machine.loop, Conversing.bind_apply, stepped]
      rfl
    have back : outer.outside.handBack = O.outside.handBack := by
      funext stop inner
      exact handBack_congr (m := outer.outside) (n := O.outside) current rfl rfl stop inner
    have answers : Veil.turns.Answers (O.outside.handBack s' m') (O.outside.handBack s' n') := by
      have both := O.outside.handBack_veil Veil.turns s' m'
      rw [machines, O.outside.handBack_veil Veil.turns s' n'] at both
      exact ⟨(congrArg Prod.fst both).symm, (congrArg Prod.snd both).symm⟩
    have taken := (Veil.Same.took answers t.thread).continues
      ((respected_continues before).took t.thread _) continues
    obtain ⟨own, other, -⟩ := h.current
    have left : m'.current = t.thread := by
      have seated := bracketed_keeps.step (keeps_runWithin (levels - 1)) m v
      rw [stepped] at seated
      exact seated.keeps.current.trans own
    have apart : m'.current ≠ O.outside.current := by
      rw [left]
      exact current ▸ other
    have ended := took_ended apart stops v'
    rw [left] at ended
    obtain ⟨⟨state, alike⟩, heard⟩ := taken
    rw [playOn, Action.bind_apply, Conversing.bind_apply, looped]
    dsimp only
    rw [back]
    generalize took t.thread (O.outside.handBack s' m') v' = x at ended state alike heard
    generalize took t.thread (O.outside.handBack s' n') w' = x' at quiet state alike heard
    have rests : x.1.1 ≠ .suspended := by
      rcases ended with same | same <;> rw [same] <;> decide
    rw [settle_apply, finish_of_rests (by simpa [Context.state] using rests)]
    refine ⟨?_, alike, ?_, ?_, state ▸ ended⟩
    · simp [← state, rests]
    · simp [heard.reports]
    · exact (quiet.trans silent).symm

/-- The script calls `next`: the turn ends with it suspended, and in the next turn it is
where the run is that nothing suspends. -/
theorem next {a : Activation} {rest : List Frame} {s : InteractionScope}
    (calls : CallsNext n₀ n w a rest s) :
    (∀ steps, Machine.loop (runWithin (levels - 1)) (7 + steps) m v =
        ((.suspended #[] (.slots a.base none), m.waiting a), v.notified s)) ∧
      (outer.setAside (m.waiting a) (.slots a.base none)).liveness t.thread = .suspended ∧
      ∃ inner, (outer.setAside (m.waiting a) (.slots a.base none)).outside.entered t.thread #[] =
          .ok inner ∧
        Stands n₀ (outer.setAside (m.waiting a) (.slots a.base none)) t.thread
          (w.notified s).reports.toList inner (v.notified s).quiet
          ((n.waiting a).goingOn (.slots a.base none)) (w.notified s) := by
  obtain ⟨-, -, held⟩ := h.current
  obtain ⟨turns, rfl⟩ : ∃ turns, m = { n with turns } := ⟨_, Veil.same_turns_iff.1 h.same⟩
  obtain ⟨args, inner, begun, minds⟩ := h.begun
  let m : Machine := { n with turns }
  have notifies : m.Notifies a rest := { calls.toNotifies with }
  have scope : m.scope? v = some s := (h.continues.scope_eq m).symm.trans calls.scope
  have asks := notifies.leads (runWithin (levels - 1)) scope
  have yields := step_yield (m := m.yielding a) (runWithin (levels - 1)) (v.notified s) rfl held
  have waits : Minds inner (m.waiting a) := minds.trans (.of_threads ⟨rfl, rfl, Nat.le_refl _⟩ rfl)
  have main : (m.waiting a).statuses[outer.current]? = some .active := by
    show n.statuses[outer.current]? = _
    rw [calls.alone, h.main]
  have again := entered_setAside begun h.there waits main (.slots a.base none)
    (calls.plain.trans h.shallow)
  have suspended := (entered_eq again).2.1
  rw [liveness_outside] at suspended
  have current : (outer.setAside (m.waiting a) (.slots a.base none)).current = outer.current :=
    current_unpark _ _
  refine ⟨fun steps => ?_, suspended, _, again, ⟨#[], _, again, bracketed_minds.refl _⟩, ?_, ?_,
    h.shallow, ?_, ?_⟩
  · have budget : 7 + steps = 6 + (steps + 1) := by omega
    rw [budget, asks.loop_eq, Machine.loop, Conversing.bind_apply, yields]
    rfl
  · rw [current]
    show _ < (Machine.handBack _ _ _).2.threads.size
    rw [size_handBack]
    exact Nat.lt_of_lt_of_le h.there ((size_entered begun).2.2 ▸ waits.threads)
  · rw [current]
    exact h.main
  · exact Veil.same_turns_iff.2 rfl
  · exact ⟨h.continues.identities, by simp [Conversation.quiet]⟩

end Stands

/-- A turn that ended inside a call of `next`. -/
theorem Context.took_setAside {outer inner : Machine} {deliver : Deliver} {thread : Nat}
    (waits : (outer.setAside inner deliver).liveness thread = .suspended) (v : Conversation) :
    took thread (outer.outside.handBack (.suspended #[] deliver) inner) v =
      ((.suspended, none, outer.setAside inner deliver), v) := by
  show ((if (outer.setAside inner deliver).liveness thread == .suspended then
    TaskState.suspended else .completed, none, outer.setAside inner deliver), v) = _
  rw [waits]
  rfl

/-- The turn ends with the script suspended, and the script is let go on. -/
theorem Context.playOn_suspended (c : Context) (t : Task) {outer m m' inner : Machine}
    {v v' : Conversation} {deliver : Deliver} {steps : Nat}
    (looped : Machine.loop (runWithin (levels - 1)) steps m v = ((.suspended #[] deliver, m'), v'))
    (waits : (outer.setAside m' deliver).liveness t.thread = .suspended)
    (begun : (outer.setAside m' deliver).outside.entered t.thread #[] = .ok inner) (n : Nat)
    (h : Host) : ∃ (c' : Context) (h' : Host),
      let told := c'.playOn ⟨t.thread, .suspended, t.suspensions + 1⟩ (outer.setAside m' deliver)
        stepBudget inner v'.quiet n h'
      c.playOn t outer steps m v (n + 1) h = ⟨(told.value.1 + 1, told.value.2), told.host,
        v'.reports.toList ++ (c.outcome .suspended none).map .line ++ told.reports⟩ := by
  let c' : Context := { c with
    task := some ⟨t.thread, .suspended, t.suspensions + 1⟩, machine := outer.setAside m' deliver
    conversation := v' }
  let h' : Host := { h with files := (outer.setAside m' deliver).heap.files }
  have settled : c.settle t ((.suspended, none, outer.setAside m' deliver), v') h =
      ⟨c', h', v'.reports.toList ++ (c.outcome .suspended none).map .line⟩ := settle_apply c t _ h
  have goesOn := finish_of_suspended (c := c') (h := h') rfl rfl begun n
  rw [Action.bind_apply, Action.pure_apply, List.append_nil] at goesOn
  have first : c.playOn t outer steps m v (n + 1) h = ⟨(c'.finish (n + 1) h').value,
      (c'.finish (n + 1) h').host, v'.reports.toList ++ (c.outcome .suspended none).map .line ++
        (c'.finish (n + 1) h').reports⟩ := by
    rw [playOn, Action.bind_apply, Conversing.bind_apply, looped]
    dsimp only
    rw [took_setAside waits, settled]
  rw [goesOn] at first
  exact ⟨c', h', first⟩

theorem Context.playOn_congr (c : Context) (t : Task) (outer : Machine) {steps steps' : Nat}
    {m m' : Machine} {v v' : Conversation}
    (same : Machine.loop (runWithin (levels - 1)) steps m v =
      Machine.loop (runWithin (levels - 1)) steps' m' v') (n : Nat) :
    c.playOn t outer steps m v n = c.playOn t outer steps' m' v' n := by
  rw [playOn, playOn, Conversing.bind_apply, Conversing.bind_apply, same]

/-- The induction is on the run that nothing suspends. -/
theorem Lua.Machine.PlaysPlainly.endsAs {n₀ O n : Machine} {thread k : Nat} {w : Conversation}
    {x : (Stop × Machine) × Conversation} (plays : PlaysPlainly (levels - 1) n₀ k n w x)
    (quiet : (took thread (O.outside.handBack x.1.1 x.1.2) x.2).2.advances = x.2.advances) :
    ∀ {c : Context} {t : Task} {outer m : Machine} {v : Conversation} {before : List Report}
      {steps N : Nat} {h : Host}, t.thread = thread → outer.current = O.current →
      Stands n₀ outer thread before m v n w → k ≤ steps → steps ≤ stepBudget →
      x.2.advances ≤ w.advances + N →
      EndsAs t before w (c.playOn t outer steps m v N h)
        (took thread (O.outside.handBack x.1.1 x.1.2) x.2) := by
  induction plays with
  | @ends n n' w w' s last ends silent =>
    rintro c t outer m v before (_ | steps) N host rfl current stands enough _ _
    · cases enough
    · exact stands.ends last ends silent current quiet steps N
  | @step n n' w w' k x first silent later ih =>
    rintro c t outer m v before (_ | steps) N host rfl current stands enough bound often
    · cases enough
    · obtain ⟨m', v', stepped, stands'⟩ := stands.step first
      have looped : Machine.loop (runWithin (levels - 1)) (steps + 1) m v =
          Machine.loop (runWithin (levels - 1)) steps m' v' := by
        rw [Machine.loop, Conversing.bind_apply, stepped]
      rw [c.playOn_congr t outer looped]
      have ended := ih quiet (c := c) (N := N) (h := host) rfl current stands'
        (Nat.le_of_succ_le_succ enough) (Nat.le_of_succ_le bound) (by rwa [silent])
      exact { ended with times := silent ▸ ended.times }
  | @next n w a rest s k x calls later ih =>
    rintro c t outer m v before steps N host rfl current stands enough bound often
    obtain ⟨loops, suspended, inner, begun, stands'⟩ := stands.next calls
    obtain ⟨steps, rfl⟩ := Nat.exists_eq_add_of_le enough
    have told := later.advances_le
    rw [Conversation.advances_notified] at told
    obtain ⟨N, rfl⟩ : ∃ N', N = N' + 1 := ⟨N - 1, by omega⟩
    have budget : k + 7 + steps = 7 + (k + steps) := by omega
    rw [budget] at bound ⊢
    obtain ⟨c', host', same⟩ := c.playOn_suspended t (loops (k + steps)) suspended begun N host
    have back : (outer.setAside (m.waiting a) (.slots a.base none)).current = outer.current :=
      current_unpark _ _
    have ended := ih quiet (c := c') (t := ⟨t.thread, .suspended, t.suspensions + 1⟩) (N := N)
      (h := host') rfl (back.trans current) stands' (by omega) (Nat.le_refl _)
      (by rw [Conversation.advances_notified]; omega)
    rw [same]
    refine ⟨?_, ended.machine, ?_, ?_, ended.ended⟩
    · have count (k : Nat) : t.suspensions + 1 + UInt32.ofNat k = t.suspensions + UInt32.ofNat (k + 1) := by
        rw [UInt32.ofNat_add, UInt32.add_assoc, UInt32.add_comm 1]
        rfl
      rw [ended.task, ← count]
    · rw [← ended.events]
      simp [Conversation.notified, Conversation.tell, stands.continues.reports]
    · rw [← ended.times, Conversation.advances_notified]
      exact (Nat.add_right_comm _ 1 _).symm

/-! ## Whole scripts -/

namespace Context

/-- If nothing suspends the script of the code, which the context is to run, then it comes to
an end, and only plain calls of `next` let the player advance; what is said of its failure
does not. -/
def PlaysPlainly (c : Context) (code : Bytecode) (h : Host) : Prop :=
  ∀ thread m, launch code c.machine = (.ok thread, m) → ∃ inner steps x,
    (withFiles m h.files).outside.entered thread #[] = .ok inner ∧ steps ≤ stepBudget ∧
      Machine.PlaysPlainly (levels - 1) inner steps inner c.conversation.quiet x ∧
      (took thread ((withFiles m h.files).outside.handBack x.1.1 x.1.2) x.2).2.advances =
        x.2.advances

/-- What a script comes to that is let go on whenever it is suspended, next to what it comes
to if nothing suspends it. -/
structure Unnoticed (whole : Told (Nat × Context)) (direct : Told (Bool × Context)) : Prop where
  /-- The player hears the same. -/
  events : Report.events whole.reports = Report.events direct.reports
  /-- The script comes to the same state. -/
  state : whole.value.2.state = direct.value.2.state
  /-- It is over. -/
  ended : whole.value.2.state = some .completed ∨ whole.value.2.state = some .failed
  /-- The machine holds the same, but for the record of turns. -/
  machine : Veil.turns.Same whole.value.2.machine direct.value.2.machine
  /-- It was suspended each time it let the player advance. -/
  times : whole.value.1 = (Report.kinds whole.reports).count .advance
  /-- That is what was counted, a number of 32 bits. -/
  suspensions : whole.value.2.suspensions = whole.value.1 % 2 ^ 32

variable {c : Context} {code : Bytecode} {h : Host} {thread : Nat} {m : Machine}

/-- The script is started. -/
theorem runBy_of_launched (idle : c.state.filter (fun s => !s.isTerminal) = none)
    (launched : launch code c.machine = (.ok thread, m)) (run : Runner) :
    c.runBy run code =
      stepBy run { c with machine := m } ⟨thread, .created, 0⟩ >>= fun c => pure (true, c) := by
  simp only [runBy, idle, launched]

/-- A script that is started is one that has a coroutine. -/
theorem launched_of_started (started : (c.run code h).value.1 = true) :
    c.state.filter (fun s => !s.isTerminal) = none ∧
      ∃ thread m, launch code c.machine = (.ok thread, m) := by
  have exit := c.ran code h
  generalize c.run code h = told at exit started
  cases exit with
  | refused st state waits => cases started
  | unstarted f m idle launched => cases started
  | started m t idle launched task => exact ⟨idle, t.thread, m, launched⟩

/-- The script begins its first turn, next to a run that nothing suspends. -/
theorem stands_begun {m inner : Machine} {thread : Nat} (settled : m.Settled)
    (begun : m.outside.entered thread #[] = .ok inner) (v : Conversation) :
    Stands inner m thread [] inner v inner v where
  begun := ⟨#[], inner, begun, bracketed_minds.refl inner⟩
  there := settled.current
  main := by rw [← status_eq, thread_outside begun settled.current, Option.map_some]
  shallow := by
    obtain ⟨-, -, control, rfl⟩ := entered_eq begun
    rfl
  same := rfl
  continues := ⟨rfl, rfl⟩

theorem settled_launch (settled : c.machine.Settled)
    (launched : launch code c.machine = (.ok thread, m)) : m.Settled := by
  obtain ⟨chunk, -, -, -, made⟩ := launch_eq_ok.1 launched
  obtain rfl := congrArg Prod.snd made
  exact (newThread_open (settled.of_seat (seat_loadChunk c.machine chunk)) _).1

end Context

/-- A whole script, from the beginning of its first turn. -/
theorem EndsAs.unnoticed {thread : Nat} {w : Conversation} {told : Told (Nat × Context)}
    {y : (TaskState × Option Failure × Machine) × Conversation}
    (h : EndsAs ⟨thread, .created, 0⟩ [] w told y) (silent : w.advances = 0)
    {direct : Told (Bool × Context)} (state : direct.value.2.state = some y.1.1)
    (machine : direct.value.2.machine = y.1.2.2)
    (events : Report.events direct.reports = Report.events y.2.reports.toList) :
    Unnoticed told direct := by
  have same : Report.events told.reports = Report.events y.2.reports.toList := h.events
  have comes : told.value.2.state = some y.1.1 := by rw [Context.state, h.task, Option.map_some]
  refine ⟨same.trans events.symm, comes.trans state.symm, ?_, machine ▸ h.machine, ?_, ?_⟩
  · rw [comes]
    exact h.ended.imp (congrArg some) (congrArg some)
  · have times := h.times
    rw [silent, Nat.zero_add] at times
    rw [times, Conversation.advances, Report.kinds, Report.kinds, same]
  · rw [Context.suspensions, h.task]
    show (0 + UInt32.ofNat told.value.1).toNat = _
    simp

/-! ## Plain runs that can be followed -/

namespace Lua.Machine

/-- The call of `next` that is about to let the player advance, with the scope of it, if only
calls of the program's own lead to it and every coroutine is running or waits for another one. -/
def callsNext? (m m₀ : Machine) (v : Conversation) : Option (Activation × InteractionScope) :=
  match m.frames, m.control, m.scope? v with
  | .lua a :: _, .run, some s =>
    let yields := match m.heap.cells[a.cells.getD 1 0]? with
      | some (.closed x) => decide (x.callee? = some (.inl .coYield))
      | _ => false
    let waits := m.statuses.all ThreadStatus.isActive && m₀.statuses.all ThreadStatus.isActive
    if (a.body.code = suspenderCode ∧ a.body.registers = 2) ∧
        (m.heap.limit = 0 ∨ m.heap.used ≤ m.heap.limit) ∧ m.pc = 3 ∧
        (m.slot a.base).callee? = some (.inl (.host .advance)) ∧ yields = true ∧
        m.depth = m₀.depth ∧ waits = true ∧ m.statuses.size = m₀.statuses.size then some (a, s)
    else none
  | _, _, _ => none

theorem statuses_eq_of_active {xs ys : Array ThreadStatus} (size : xs.size = ys.size)
    (left : xs.all ThreadStatus.isActive = true) (right : ys.all ThreadStatus.isActive = true) :
    xs = ys := by
  have active (s : ThreadStatus) (h : s.isActive = true) : s = .active := by
    cases s <;> first | rfl | cases h
  rw [Array.all_eq_true_iff_forall_mem] at left right
  refine Array.ext size fun i lt lt' => ?_
  rw [active _ (left _ (Array.getElem_mem lt)), active _ (right _ (Array.getElem_mem lt'))]

theorem callsNext_of_eq_some {m₀ m : Machine} {v : Conversation} {a : Activation}
    {s : InteractionScope} (h : m.callsNext? m₀ v = some (a, s)) :
    ∃ rest, CallsNext m₀ m v a rest s := by
  unfold callsNext? at h
  split at h
  case h_2 => cases h
  case h_1 a rest s frames control scope =>
    obtain ⟨found, same⟩ := Option.ite_none_right_eq_some.1 h
    cases same
    obtain ⟨⟨code, registers⟩, memory, pc, notify, yields, depth, waits, size⟩ := found
    obtain ⟨left, right⟩ := Bool.and_eq_true_iff.1 waits
    refine ⟨rest, ⟨⟨frames, ⟨code, registers⟩, memory⟩, control, pc, Value.eq_ofCallee notify, ?_⟩, scope,
      depth, statuses_eq_of_active size left right⟩
    split at yields
    · next x there =>
      rw [there, Value.eq_ofCallee (of_decide_eq_true yields)]
      rfl
    · cases yields

/-- A run is followed for so many steps at most, as long as it is plain.  The answer is what
it comes to. -/
def follow (n : Nat) (m₀ : Machine) : Nat → Machine → Conversation →
    Option ((Stop × Machine) × Conversation)
  | 0, _, _ => none
  | k + 1, m, v =>
    match m.callsNext? m₀ v with
    | some (a, s) => follow n m₀ k ((m.waiting a).goingOn (.slots a.base none)) (v.notified s)
    | none =>
      let (s, w) := m.step (runWithin n) v
      if w.advances = v.advances && !s.suspends then
        match s with
        | .next m => follow n m₀ k m w
        | .stop s m => some ((s, m), w)
      else none

/-- The induction is on the bound for the steps. -/
theorem plays_of_follow {n : Nat} {m₀ : Machine} {k : Nat} {m : Machine} {v : Conversation}
    {x : (Stop × Machine) × Conversation} (h : follow n m₀ k m v = some x) :
    ∃ steps ≤ 7 * k, PlaysPlainly n m₀ steps m v x := by
  induction k generalizing m v with
  | zero => cases h
  | succ k ih =>
    unfold follow at h
    split at h
    · next a s found =>
      obtain ⟨rest, calls⟩ := callsNext_of_eq_some found
      obtain ⟨steps, bound, later⟩ := ih h
      exact ⟨steps + 7, by omega, .next calls later⟩
    · cases stepped : m.step (runWithin n) v with
      | mk s w =>
        rw [stepped] at h
        dsimp only at h
        split at h
        · next plain =>
          simp only [Bool.and_eq_true, decide_eq_true_eq, Bool.not_eq_true'] at plain
          obtain ⟨silent, ends⟩ := plain
          cases s with
          | next m' =>
            obtain ⟨steps, bound, later⟩ := ih h
            exact ⟨steps + 1, by omega, .step stepped silent later⟩
          | stop s m' =>
            cases h
            refine ⟨1, by omega, .ends stepped (fun vs deliver same => ?_) silent⟩
            subst same
            cases ends
        · cases h

end Lua.Machine

/-- Is the script of the code plain, as far as so many steps tell? -/
def Context.isPlain (c : Context) (code : Bytecode) (h : Host) (steps : Nat) : Bool :=
  match launch code c.machine with
  | (.error _, _) => false
  | (.ok thread, m) =>
    match (withFiles m h.files).outside.entered thread #[] with
    | .error _ => false
    | .ok inner =>
      match follow (levels - 1) inner steps inner c.conversation.quiet with
      | some ((.returned _, _), _) => true
      | _ => false

theorem Context.playsPlainly_of_isPlain {c : Context} {code : Bytecode} {h : Host} {steps : Nat}
    (few : 7 * steps ≤ stepBudget) (plain : c.isPlain code h steps = true) :
    c.PlaysPlainly code h := by
  intro thread m launched
  unfold isPlain at plain
  rw [launched] at plain
  dsimp only at plain
  split at plain
  · cases plain
  · next inner begun =>
    split at plain
    · next vs m' w followed =>
      obtain ⟨steps, bound, plays⟩ := plays_of_follow followed
      exact ⟨inner, steps, _, begun, Nat.le_trans bound few, plays, rfl⟩
    · cases plain

/-- A script that lets the player advance in a function of its own, which it calls in a loop. -/
def asking : String :=
  "local function ask(n)\n  mes('Call ' .. n)\n  next()\n  return n + 1\nend\n" ++
    "local n = 1\nwhile n < 3 do n = ask(n) end\nmes('Bye')\n"

/-- Its code. -/
def askingCode : Option Bytecode := Bytecode.ofSource? asking

/-- It is plain, and lets the player advance twice. -/
theorem asking_isPlain :
    (do
      let code ← askingCode
      let c ← (Context.create .default ⟨1⟩ ⟨2⟩ (.start .empty)).value.toOption
      let told := c.runBy runThrough code (.start .empty)
      return (c.isPlain code (.start .empty) 200, (c.run code (.start .empty)).value.1,
        (Report.kinds told.reports).count .advance)) = some (true, true, 2) := by
  rw [Context.create_eq_furnish]
  decide +kernel

/-! ## Whole scripts, suspended or not -/

/-- Suspension is not noticed.  A context, whatever it was asked for before, starts a script;
if nothing suspended it, the script would come to an end, and only plain calls of `next`
would let the player advance.  Then letting the script go on whenever it is suspended comes to
the same: the player hears the same and the script comes to the same state, with all that the
machine holds, but for its record of turns.  The script was suspended just as often as it let
the player advance. -/
theorem suspension_transparent {config : Config} {s : SessionId} {e : EntityId} {h₀ : Host}
    {c₀ : Context} (made : (Context.create config s e h₀).value = .ok c₀)
    (requests : List (Host × Request)) {c : Context} (asked : c = (c₀.tally .zero requests).1)
    (code : Bytecode) (h : Host) (started : (c.run code h).value.1 = true)
    (plain : c.PlaysPlainly code h) (n : Nat)
    (often : (Report.kinds (c.runBy runThrough code h).reports).count .advance ≤ n) :
    Unnoticed (c.runOut code n h) (c.runBy runThrough code h) := by
  obtain ⟨idle, thread, m, launched⟩ := launched_of_started started
  obtain ⟨inner, steps, x, begun, bound, plays, quiet⟩ := plain thread m launched
  have counted := (counted_create made).tally requests
  rw [← asked] at counted
  have settled := settled_launch counted.settled launched
  let outer := withFiles m h.files
  have before : outer.Settled := ⟨settled.current, settled.known⟩
  have stands := stands_begun before begun c.conversation.quiet
  let c' : Context := { c with machine := m }
  let t : Task := ⟨thread, .created, 0⟩
  have whole : c.runOut code n h = c'.playOn t outer stepBudget inner c.conversation.quiet n h := by
    rw [runOut, ← runBy_run, runBy_of_launched idle launched, stepBy_run, ← step_eq (c := c') begun n]
    simp only [Action.bind_apply, Action.pure_apply, List.append_nil]
    rfl
  have through : turnBy runThrough t.thread outer c.conversation.quiet =
      took t.thread (outer.outside.handBack x.1.1 x.1.2) x.2 := by
    have ran := plays.loopThrough_eq (size_entered begun).2.1 (stepBudget - steps)
    rw [Nat.add_sub_cancel' bound] at ran
    have resumed : Machine.resume runThrough t.thread #[] outer.outside c.conversation.quiet =
        (outer.outside.handBack x.1.1 x.1.2, x.2) := by
      rw [Machine.resume, begun]
      dsimp only
      rw [Conversing.bind_apply, runThrough, ran]
      rfl
    rw [turnBy, Conversing.bind_apply, resumed]
  have direct : c.runBy runThrough code h = (c'.settle t
      (took t.thread (outer.outside.handBack x.1.1 x.1.2) x.2) >>= fun c => pure (true, c)) h := by
    rw [runBy_of_launched idle launched, ← through]
    rfl
  have silent : c.conversation.quiet.advances = 0 := rfl
  rw [whole]
  generalize reached : took t.thread (outer.outside.handBack x.1.1 x.1.2) x.2 = y at direct quiet
  have state : (c.runBy runThrough code h).value.2.state = some y.1.1 := by
    rw [direct, Action.bind_apply, settle_apply]
    rfl
  have machine : (c.runBy runThrough code h).value.2.machine = y.1.2.2 := by
    rw [direct, Action.bind_apply, settle_apply]
    rfl
  have events : Report.events (c.runBy runThrough code h).reports = Report.events y.2.reports.toList := by
    rw [direct, Action.bind_apply, settle_apply]
    simp
  rw [Report.kinds, events] at often
  have ended := plays.endsAs (O := outer) (reached ▸ quiet) (c := c') (t := t) (N := n) (h := h) rfl
    rfl stands bound (Nat.le_refl _) (by rw [silent, Nat.zero_add, ← quiet]; exact often)
  rw [reached] at ended
  exact ended.unnoticed silent state machine events

theorem suspension_transparent_asking :
    ∃ code c, askingCode = some code ∧
      (Context.create .default ⟨1⟩ ⟨2⟩ (.start .empty)).value = .ok c ∧
      (c.run code (.start .empty)).value.1 = true ∧ c.PlaysPlainly code (.start .empty) ∧
      (Report.kinds (c.runBy runThrough code (.start .empty)).reports).count .advance = 2 ∧
      Unnoticed (c.runOut code 2 (.start .empty)) (c.runBy runThrough code (.start .empty)) := by
  obtain ⟨code, made, told⟩ := Option.bind_eq_some_iff.1 asking_isPlain
  obtain ⟨c, created, told⟩ := Option.bind_eq_some_iff.1 told
  have created := ok_of_toOption created
  have told := Option.some.inj told
  rw [Prod.mk.injEq, Prod.mk.injEq] at told
  obtain ⟨follows, started, twice⟩ := told
  have plain := Context.playsPlainly_of_isPlain (by decide) follows
  exact ⟨code, c, made, created, started, plain, twice,
    suspension_transparent created [] rfl code (.start .empty) started plain 2 (Nat.le_of_eq twice)⟩

end NpcDialog
