import Mathlib.Data.List.Nodup
import NpcDialog.Proofs.Dialog.History

/-!
# What is true of a manager at any time

However a manager came to be what it is, each of its interactions is one of the
session under which it is kept, its script waits, its entity is the one with
which it was started, and its context has a number that no other has and that
will not be handed out again.  So the manager never asks a context for
something that the context would refuse.

* `Entry`, `Sound` — the invariant, for one interaction and for all.
* `World.sound` — it holds behind any calls.
* `World.regular` — so no context ever refuses what the manager asks for.
-/

namespace NpcDialog

/-- An interaction of session `k`, kept by a manager behind the records `past`,
when the next number for a context is `next`. -/
structure Entry (next : Nat) (past : List Record) (k : SessionId) (c : Context) : Prop where
  /-- It is the session's own. -/
  session : c.session = k
  /-- Its script waits. -/
  waits : ∃ t, c.task = some t ∧ t.state = .suspended
  /-- It was made by a call that began an interaction with its entity. -/
  origin : ∃ r ∈ past, ∃ script, r.call = .start k c.entity script ∧
    r.reply = .started (.ok (some .suspended)) ∧ .created c.id k c.entity ∈ Report.lines r.reports
  /-- Its number was handed out before. -/
  old : c.id.val < next

/-- All interactions of a manager are what they should be. -/
structure Sound (m : Manager) (next : Nat) (past : List Record) : Prop where
  /-- No session has two. -/
  sessions : (m.active.map Prod.fst).Nodup
  /-- No two have the same number. -/
  numbers : (m.active.map fun p => p.2.id).Nodup
  /-- Each is what it should be. -/
  entries : ∀ k c, (k, c) ∈ m.active → Entry next past k c

namespace Entry

variable {next next' : Nat} {past past' : List Record} {k : SessionId} {c d : Context}

theorem mono (h : Entry next past k c) (later : next ≤ next') (more : past ⊆ past') :
    Entry next' past' k c := by
  obtain ⟨r, mem, made⟩ := h.origin
  exact ⟨h.session, h.waits, ⟨r, more mem, made⟩, Nat.lt_of_lt_of_le h.old later⟩

/-- Its script waits, as seen from outside. -/
theorem state (h : Entry next past k c) : c.state = some .suspended := by
  obtain ⟨t, task, waits⟩ := h.waits
  simp [Context.state, task, waits]

end Entry

namespace Context

variable {c d : Context}

theorem isFinished_of_state {st : TaskState} (state : c.state = some st) :
    c.isFinished = st.isTerminal := by
  simp [isFinished, state]

/-- A context whose script rests, but not for ever, has one that waits. -/
theorem waits_of_rests {st : TaskState} {failure : Option Failure} (state : c.state = some st)
    (rests : Rests st failure) (isOver : c.isFinished = false) :
    ∃ t, c.task = some t ∧ t.state = .suspended := by
  obtain ⟨t, task, rfl⟩ : ∃ t, c.task = some t ∧ t.state = st := by
    simpa [Context.state] using state
  refine ⟨t, task, ?_⟩
  rcases rests.state with waits | done | failed
  · exact waits
  · simp [isFinished, state, done, TaskState.isTerminal] at isOver
  · simp [isFinished, state, failed, TaskState.isTerminal] at isOver

end Context

namespace Sound

variable {m : Manager} {next next' : Nat} {past past' : List Record} {s : SessionId} {d : Context}

theorem mono (h : Sound m next past) (later : next ≤ next') (more : past ⊆ past') :
    Sound m next' past' :=
  ⟨h.sessions, h.numbers, fun k c mem => (h.entries k c mem).mono later more⟩

theorem erase (h : Sound m next past) (s : SessionId) : Sound (m.erase s) next past where
  sessions := h.sessions.sublist (List.filter_sublist.map _)
  numbers := h.numbers.sublist (List.filter_sublist.map _)
  entries k c mem := h.entries k c (m.mem_erase.1 mem).2

/-- An interaction can be put in if no other session's has its number. -/
theorem insert (h : Sound m next past) (entry : Entry next past s d)
    (fresh : ∀ k c, (k, c) ∈ m.active → k ≠ s → c.id ≠ d.id) : Sound (m.insert s d) next past where
  sessions := by
    refine List.nodup_cons.2 ⟨?_, (h.erase s).sessions⟩
    rw [List.mem_map]
    rintro ⟨⟨k, c⟩, mem, same⟩
    exact (m.mem_erase.1 mem).1 same
  numbers := by
    refine List.nodup_cons.2 ⟨?_, (h.erase s).numbers⟩
    rw [List.mem_map]
    rintro ⟨⟨k, c⟩, mem, same⟩
    obtain ⟨other, mem⟩ := m.mem_erase.1 mem
    exact fresh k c mem other same
  entries k c mem := by
    rcases m.mem_insert.1 mem with ⟨rfl, rfl⟩ | ⟨-, mem⟩
    · exact entry
    · exact h.entries k c mem

/-- The interaction of a session can be found. -/
theorem find? (h : Sound m next past) {k : SessionId} {c : Context} (mem : (k, c) ∈ m.active) :
    m.find? k = some c := by
  cases found : m.find? k with
  | none =>
    have other := List.lookup_eq_none_iff.1 found _ mem
    simp at other
  | some c' =>
    have same : (k, c') = (k, c) :=
      List.inj_on_of_nodup_map h.sessions (m.mem_of_find? found) mem rfl
    simpa using same

end Sound

/-! ## Refusals -/

/-- Is it a line about something that a context has refused? -/
def LogLine.isRefusal : LogLine → Bool
  | .resumeIgnored _ _ | .startRefused _ _ => true
  | _ => false

theorem LogLine.isRefusal_of_isOfCallback {l : LogLine} (h : l.isOfCallback) :
    l.isRefusal = false := by
  cases l <;> simp_all [isOfCallback, isRefusal]

/-- No context has refused anything. -/
def Smooth (rs : List Report) : Prop := ∀ l ∈ Report.lines rs, l.isRefusal = false

namespace Smooth

variable {rs qs : List Report}

@[simp] theorem nil : Smooth [] := by simp [Smooth]

@[simp] theorem append_iff : Smooth (rs ++ qs) ↔ Smooth rs ∧ Smooth qs := by
  rw [Smooth, Report.lines_append, List.forall_mem_append]
  rfl

@[simp] theorem line_iff {l : LogLine} :
    Smooth (.line l :: rs) ↔ l.isRefusal = false ∧ Smooth rs := by
  simp [Smooth]

end Smooth

namespace Context

theorem Stepped.smooth {c : Context} {h : Host} {st : TaskState} {failure : Option Failure}
    {x : Told Context} (went : Stepped c h st failure x) : Smooth x.reports := by
  obtain ⟨calls, lines, callbacks⟩ := went.lines
  intro l mem
  rw [lines, List.mem_append] at mem
  rcases mem with mem | mem
  · exact LogLine.isRefusal_of_isOfCallback (callbacks l mem)
  · cases failure <;> simp [outcome] at mem
    · simp [mem, LogLine.isRefusal]
    · rcases mem with rfl | rfl <;> rfl

@[simp] theorem smooth_drop (c : Context) (h : Host) : Smooth (c.drop h).reports := by
  obtain ⟨calls, lines, callbacks⟩ := c.lines_drop h
  intro l mem
  rw [lines, List.mem_append] at mem
  rcases mem with bye | call
  · obtain rfl : l = .abandoning c.id := by
      unfold farewell at bye
      split at bye <;> simp_all
    rfl
  · exact LogLine.isRefusal_of_isOfCallback (callbacks l call)

/-- What is known of a new context that was asked to run a script. -/
structure Launched (s : SessionId) (e : EntityId) (h h₂ : Host) (accepted : Bool) (d : Context)
    (rs qs : List Report) : Prop where
  /-- It is the session's own. -/
  session : d.session = s
  /-- It is one with the entity. -/
  entity : d.entity = e
  /-- It has the next number. -/
  id : d.id = h.next
  /-- One number was taken. -/
  next : h₂.next.val = h.next.val + 1
  /-- Its script rests, if it was accepted. -/
  rests : accepted → ∃ st failure, d.state = some st ∧ Rests st failure
  /-- It was told that it was made. -/
  made : .created d.id s e ∈ Report.lines rs
  /-- It has refused nothing. -/
  smooth : Smooth (rs ++ qs)

theorem Launched.le_next {s : SessionId} {e : EntityId} {h h₂ : Host} {accepted : Bool}
    {d : Context} {rs qs : List Report} (new : Launched s e h h₂ accepted d rs qs) :
    h.next.val ≤ h₂.next.val := by
  rw [new.next]
  exact Nat.le_succ _

theorem launched {config : Config} {s : SessionId} {e : EntityId} {h h₁ h₂ : Host} {c d : Context}
    {code : Bytecode} {accepted : Bool} {rs qs : List Report}
    (made : create config s e h = ⟨.ok c, h₁, rs⟩) (ran : c.run code h₁ = ⟨(accepted, d), h₂, qs⟩) :
    Launched s e h h₂ accepted d rs qs := by
  have first := created config s e h
  rw [made] at first
  cases first with
  | made m =>
    have second := Context.ran ⟨h.next, s, e, none, m, .between h.next s e⟩ code
      ⟨⟨h.next.val + 1⟩, h.files⟩
    rw [ran] at second
    cases second with
    | refused st state waits => exact absurd state (by simp [Context.state])
    | unstarted f m' idle launched =>
      refine ⟨rfl, rfl, rfl, rfl, by simp, by simp, ?_⟩
      cases f <;> simp [LaunchFault.line, LogLine.isRefusal]
    | started m t =>
      obtain ⟨st, failure, went⟩ := stepped ⟨h.next, s, e, none, m, .between h.next s e⟩ t
        ⟨⟨h.next.val + 1⟩, h.files⟩
      refine ⟨went.session, went.entity, went.id, congrArg _ went.next, fun _ => ?_, ?_, ?_⟩
      · exact ⟨st, failure, went.state, went.rests⟩
      · simp [went.id]
      · simp [LogLine.isRefusal, went.smooth]

end Context

/-- A context whose script waits goes on with a step. -/
theorem Context.step_of_resume {c d : Context} {h h' : Host} {st : Option TaskState}
    {rs : List Report}
    (waits : ∃ t, c.task = some t ∧ t.state = .suspended) (went : c.resume h = ⟨(st, d), h', rs⟩) :
    ∃ t, c.task = some t ∧ c.step t h = ⟨d, h', rs⟩ ∧ st = d.state := by
  obtain ⟨t, task, waits⟩ := waits
  have exit := c.resumed h
  rw [went] at exit
  cases exit with
  | absent none_ => simp [none_] at task
  | stepped t' task' => exact ⟨t', task', rfl, rfl⟩
  | ignored t' task' idle =>
    rw [task, Option.some.injEq] at task'
    exact absurd (task' ▸ waits) idle

/-- The answer of a context whose script waited is the state it has come to. -/
theorem Context.state_of_resume {c d : Context} {h h' : Host} {st : Option TaskState}
    {rs : List Report}
    (waits : ∃ t, c.task = some t ∧ t.state = .suspended) (went : c.resume h = ⟨(st, d), h', rs⟩) :
    ∃ x failure, st = some x ∧ d.state = some x ∧ Rests x failure := by
  obtain ⟨t, -, step, rfl⟩ := step_of_resume waits went
  obtain ⟨x, failure, stepped⟩ := stepped c t h
  rw [step] at stepped
  exact ⟨x, failure, stepped.state, stepped.state, stepped.rests⟩

/-! ## One call -/

namespace Sound

variable {m : Manager} {next : Nat} {past : List Record} {s : SessionId}

/-- Beginning an interaction keeps the invariant: the session is free, so what is
put in has a new number. -/
theorem start (sound : Sound m next past) (e : EntityId) (script : Metadata) (h : Host)
    (later : next ≤ h.next.val) :
    let told := m.start s e script h
    Sound told.value.2 told.host.next.val
      (⟨.start s e script, .started told.value.1, told.reports⟩ :: past) ∧
      Smooth told.reports := by
  have exit := m.started (s := s) e script h
  generalize m.start s e script h = told at exit
  have grown {r : Record} : past ⊆ r :: past := List.subset_cons_self r past
  cases exit with
  | busy taken => exact ⟨sound.mono later grown, .nil⟩
  | mute free code => exact ⟨sound.mono later grown, by simp [LogLine.isRefusal]⟩
  | unmade free known made =>
    have first := Context.created m.config s e h
    rw [made] at first
    cases first with
    | failed f n hn => exact ⟨sound.mono (Nat.le_trans later hn) grown, .nil⟩
  | unstarted free known made ran =>
    have new := Context.launched made ran
    obtain ⟨smooth, smooth'⟩ := Smooth.append_iff.1 new.smooth
    have later' : next ≤ _ := Nat.le_trans later new.le_next
    refine ⟨?_, by simp [smooth, smooth', LogLine.isRefusal]⟩
    rw [Context.next_drop]
    exact sound.mono later' grown
  | finished free known made ran isOver =>
    have new := Context.launched made ran
    obtain ⟨smooth, smooth'⟩ := Smooth.append_iff.1 new.smooth
    have later' : next ≤ _ := Nat.le_trans later new.le_next
    refine ⟨?_, by simp [smooth, smooth', LogLine.isRefusal]⟩
    rw [Context.next_drop]
    exact sound.mono later' grown
  | @opened c d h₁ h₂ rs qs free code known made ran isOver =>
    have new := Context.launched made ran
    obtain ⟨smooth, smooth'⟩ := Smooth.append_iff.1 new.smooth
    have later' : next ≤ h₂.next.val := Nat.le_trans later new.le_next
    obtain ⟨st, failure, state, rests⟩ := new.rests rfl
    obtain ⟨t, task, waits⟩ := Context.waits_of_rests state rests isOver
    have entry : Entry h₂.next.val (⟨.start s e script, .started (.ok d.state),
        rs ++ (qs ++ [.line (.startedTalking s script.name e)])⟩ :: past) s d := by
      refine ⟨new.session, ⟨t, task, waits⟩, ⟨_, List.mem_cons_self, script, ?_, ?_, ?_⟩, ?_⟩
      · rw [new.entity]
      · simp [Context.state, task, waits]
      · simp [new.entity, new.made]
      · rw [new.id, new.next]
        exact Nat.lt_succ_self _
    refine ⟨(sound.mono later' grown).insert entry ?_, by simp [smooth, smooth', LogLine.isRefusal]⟩
    -- The number of the new context is not yet handed out when the others are looked at.
    intro k c' mem _ same
    have old := (sound.entries k c' mem).old
    rw [same, new.id] at old
    exact absurd later (Nat.not_le_of_lt old)

/-- Letting an interaction go on keeps the invariant: a context that waits makes a
step, and is thrown away unless it waits again. -/
theorem resume (sound : Sound m next past) (s : SessionId) (h : Host) (later : next ≤ h.next.val) :
    let told := m.resume s h
    Sound told.value.2 told.host.next.val
      (⟨.resume s, .resumed told.value.1, told.reports⟩ :: past) ∧
      Smooth told.reports := by
  have exit := m.resumed s h
  generalize m.resume s h = told at exit
  have grown {r : Record} : past ⊆ r :: past := List.subset_cons_self r past
  cases exit with
  | absent free => exact ⟨sound.mono later grown, .nil⟩
  | ended found went isOver =>
    have entry := sound.entries s _ (m.mem_of_find? found)
    obtain ⟨t, -, step, -⟩ := Context.step_of_resume entry.waits went
    obtain ⟨st, failure, stepped⟩ := Context.stepped _ t h
    rw [step] at stepped
    have later' : next ≤ _ := Nat.le_trans later (Nat.le_of_eq (congrArg _ stepped.next.symm))
    refine ⟨?_, by simp [stepped.smooth, LogLine.isRefusal]⟩
    rw [Context.next_drop]
    exact (sound.erase s).mono later' grown
  | @waiting c d st' h' rs found went isOver =>
    have mem := m.mem_of_find? found
    have entry := sound.entries s c mem
    obtain ⟨t, -, step, -⟩ := Context.step_of_resume entry.waits went
    obtain ⟨st, failure, stepped⟩ := Context.stepped c t h
    rw [step] at stepped
    have later' : next ≤ h'.next.val :=
      Nat.le_trans later (Nat.le_of_eq (congrArg _ stepped.next.symm))
    have waits := Context.waits_of_rests stepped.state stepped.rests isOver
    have entry' := entry.mono later' (grown (r := ⟨.resume s, .resumed st', rs⟩))
    have again : Entry _ _ s d := ⟨stepped.session.trans entry'.session, waits,
      by rw [stepped.entity, stepped.id]; exact entry'.origin, by rw [stepped.id]; exact entry'.old⟩
    refine ⟨(sound.mono later' grown).insert again ?_, stepped.smooth⟩
    intro k c' mem' other same
    have twice : (k, c') = (s, c) :=
      List.inj_on_of_nodup_map sound.numbers mem' mem (same.trans stepped.id)
    exact other (congrArg Prod.fst twice)

/-- Ending an interaction keeps the invariant. -/
theorem abandon (sound : Sound m next past) (s : SessionId) (h : Host) (later : next ≤ h.next.val) :
    let told := m.abandon s h
    Sound told.value.2 told.host.next.val
        (⟨.abandon s, .abandoned told.value.1, told.reports⟩ :: past) ∧
      Smooth told.reports := by
  have exit := m.abandoned s h
  generalize m.abandon s h = told at exit
  have grown {r : Record} : past ⊆ r :: past := List.subset_cons_self r past
  cases exit with
  | absent free => exact ⟨sound.mono later grown, .nil⟩
  | ended found =>
    refine ⟨?_, by simp [LogLine.isRefusal]⟩
    rw [Context.next_drop]
    exact (sound.erase s).mono later grown

end Sound

namespace World

/-- One call, whatever it is and whatever happened outside before it, keeps the
invariant, and nothing is refused. -/
theorem sound_serve {w : World} {past : List Record} (sound : Sound w.manager w.host.next.val past)
    (t : Turn) :
    Sound (w.serve t).2.manager (w.serve t).2.host.next.val ((w.serve t).1 :: past) ∧
      Smooth (w.serve t).1.reports := by
  obtain ⟨n, files, call⟩ := t
  have later : w.host.next.val ≤ w.host.next.val + n := Nat.le_add_right _ _
  cases call with
  | start s e script => simpa using sound.start e script ⟨⟨w.host.next.val + n⟩, files⟩ later
  | resume s => simpa using sound.resume s ⟨⟨w.host.next.val + n⟩, files⟩ later
  | abandon s => simpa using sound.abandon s ⟨⟨w.host.next.val + n⟩, files⟩ later

variable (config : Config) (host : Host)

/-- The invariant holds behind any calls. -/
theorem sound (past : List Turn) :
    let w := (new config host).after past
    Sound w.manager w.host.next.val ((new config host).records past) := by
  have first : Sound (new config host).manager (new config host).host.next.val [] :=
    ⟨.nil, .nil, fun k c mem => absurd mem List.not_mem_nil⟩
  exact after_induction (P := fun w past => Sound w.manager w.host.next.val past) first
    (fun _ _ t h => (sound_serve h t).1) past

/-- What is true of a manager behind the calls that were recorded. -/
structure Regular (w : World) (past : List Record) : Prop
    extends Sound w.manager w.host.next.val past where
  /-- The entity that is known of a session is that of its interaction. -/
  known : ∀ k c, (k, c) ∈ w.manager.active → w.manager.entityOf k = some c.entity
  /-- Whatever is asked for next, no context refuses anything. -/
  smooth : ∀ t, Smooth (w.serve t).1.reports

/-- A manager is regular at any time. -/
theorem regular (past : List Turn) :
    Regular ((new config host).after past) ((new config host).records past) where
  toSound := sound config host past
  known k c mem := by
    rw [Manager.entityOf, (sound config host past).find? mem]
    rfl
  smooth t := (sound_serve (sound config host past) t).2

end World

end NpcDialog
