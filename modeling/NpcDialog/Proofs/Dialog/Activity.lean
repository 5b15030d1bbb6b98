import Mathlib.Data.Set.Card
import NpcDialog.Proofs.Dialog.Invariant
import NpcDialog.Proofs.Dialog.Simulation

/-!
# Who talks to whom is known from the answers

Some answers tell how it stands with a session: an interaction that was begun or
went on is in some state, and one that was ended is gone.  The others tell nothing.
Whoever keeps the answers of a manager knows at any time which sessions talk to
somebody, and to whom: the last answer that tells how it stands with a session
decides whether it does, and the last interaction of the session that was begun and
not over at once decides with whom.  So there is nothing in a manager that its
answers did not tell.

* `Record.isGoingOn?` — how it stands behind a call, as far as its answer tells.
* `talks`, `partner?` — what is known of a session from the answers so far.
* `Tracks` — a manager that is in accord with the answers so far.
* `World.activity_eq_answers` — the result.
-/

namespace NpcDialog

/-! ## What answers tell -/

/-- Is the interaction that a call was about going on behind it?  Nothing is said if
the answer does not tell. -/
def Record.isGoingOn? (r : Record) : Option Bool :=
  match r.reply with
  | .started (.ok (some st)) | .resumed (some st) => some (st == .suspended)
  | .abandoned true => some false
  | _ => none

/-- The entity of an interaction that a call has begun and that waits behind it. -/
def Record.opens? (r : Record) : Option EntityId :=
  match r.call, r.reply with
  | .start _ e _, .started (.ok (some .suspended)) => some e
  | _, _ => none

/-- The calls about a session, the latest first. -/
def about (past : List Record) (s : SessionId) : List Record :=
  past.filter fun r => r.call.session == s

/-- Does a session talk to somebody, as far as can be told from the answers?  The
last answer that tells decides. -/
def talks (past : List Record) (s : SessionId) : Bool :=
  ((about past s).findSome? Record.isGoingOn?).getD false

/-- The entity of the last interaction of a session that did not end with its
beginning. -/
def partner? (past : List Record) (s : SessionId) : Option EntityId :=
  (about past s).findSome? Record.opens?

section Cons

variable {r : Record} {past : List Record} {s k : SessionId}

theorem about_cons_self : about (r :: past) r.call.session = r :: about past r.call.session := by
  simp [about]

theorem about_cons_of_ne (h : k ≠ r.call.session) : about (r :: past) k = about past k := by
  simp [about, Ne.symm h]

/-- An answer that does not tell changes nothing. -/
theorem talks_cons_of_none (silent : r.isGoingOn? = none) : talks (r :: past) k = talks past k := by
  by_cases here : k = r.call.session
  · rw [talks, here, about_cons_self, List.findSome?_cons, silent]
    rfl
  · rw [talks, about_cons_of_ne here]
    rfl

/-- An answer that tells decides. -/
theorem talks_cons_of_some {b : Bool} (tells : r.isGoingOn? = some b) :
    talks (r :: past) r.call.session = b := by
  rw [talks, about_cons_self, List.findSome?_cons, tells]
  rfl

theorem partner?_cons_of_none (silent : r.opens? = none) :
    partner? (r :: past) k = partner? past k := by
  by_cases here : k = r.call.session
  · rw [partner?, here, about_cons_self, List.findSome?_cons, silent]
    rfl
  · rw [partner?, about_cons_of_ne here]
    rfl

theorem partner?_cons_of_some {e : EntityId} (opens : r.opens? = some e) :
    partner? (r :: past) r.call.session = some e := by
  rw [partner?, about_cons_self, List.findSome?_cons, opens]

end Cons

/-! ## Managers in accord with their answers -/

/-- What there is of a session, and what is known of it. -/
inductive Known : Option Context → Bool → Option EntityId → Prop
  /-- It talks to nobody. -/
  | silent {e : Option EntityId} : Known none false e
  /-- It talks to the entity of its context. -/
  | talking (c : Context) : Known (some c) true (some c.entity)

/-- What a manager has of each session is what is known from the answers. -/
def Tracks (m : Manager) (past : List Record) : Prop :=
  ∀ s, Known (m.find? s) (talks past s) (partner? past s)

namespace Tracks

variable {m m' : Manager} {past : List Record} {r : Record} {s : SessionId} {e : EntityId}
  {c d : Context}

/-- A session talks to somebody if and only if its interaction can be found. -/
theorem talks_eq (h : Tracks m past) (s : SessionId) : talks past s = (m.find? s).isSome := by
  have known := h s
  generalize m.find? s = x, talks past s = b, partner? past s = y at known ⊢
  cases known <;> rfl

/-- The entity of an interaction is the one that is known. -/
theorem partner?_eq (h : Tracks m past) (found : m.find? s = some c) :
    partner? past s = some c.entity := by
  have known := h s
  rw [found] at known
  generalize talks past s = b, partner? past s = y at known ⊢
  cases known
  rfl

/-- A call that tells nothing about its session leaves the manager in accord. -/
theorem silent (h : Tracks m past) (quiet : r.isGoingOn? = none) (shut : r.opens? = none) :
    Tracks m (r :: past) := by
  intro k
  rw [talks_cons_of_none quiet, partner?_cons_of_none shut]
  exact h k

/-- It is enough to look at the session of a call if nothing has happened to the
others. -/
theorem of_others (h : Tracks m past) (others : ∀ k ≠ r.call.session, m'.find? k = m.find? k)
    (here : Known (m'.find? r.call.session) (talks (r :: past) r.call.session)
      (partner? (r :: past) r.call.session)) :
    Tracks m' (r :: past) := by
  intro k
  by_cases same : k = r.call.session
  · rw [same]
    exact here
  · rw [others k same, talks, partner?, about_cons_of_ne same]
    exact h k

/-- An interaction that is over is no longer in the manager. -/
theorem gone (h : Tracks m past) (others : ∀ k ≠ r.call.session, m'.find? k = m.find? k)
    (tells : r.isGoingOn? = some false) (none_ : m'.find? r.call.session = none) :
    Tracks m' (r :: past) := by
  refine h.of_others others ?_
  rw [none_, talks_cons_of_some tells]
  exact .silent

/-- A new interaction that waits is in the manager. -/
theorem begun (h : Tracks m past) (same : r.call.session = s) (tells : r.isGoingOn? = some true)
    (opens : r.opens? = some d.entity) : Tracks (m.insert s d) (r :: past) := by
  subst same
  refine h.of_others (fun k other => m.find?_insert_of_ne other) ?_
  rw [m.find?_insert_self, talks_cons_of_some tells, partner?_cons_of_some opens]
  exact .talking d

/-- An interaction that waits again is still in the manager. -/
theorem again (h : Tracks m past) (same : r.call.session = s) (found : m.find? s = some c)
    (tells : r.isGoingOn? = some true) (shut : r.opens? = none) (entity : d.entity = c.entity) :
    Tracks (m.insert s d) (r :: past) := by
  subst same
  refine h.of_others (fun k other => m.find?_insert_of_ne other) ?_
  rw [m.find?_insert_self, talks_cons_of_some tells, partner?_cons_of_none shut,
    h.partner?_eq found, ← entity]
  exact .talking d

end Tracks

/-! ## One call -/

/-- A context that is over does not wait. -/
theorem Context.beq_suspended_of_isOver {d : Context} {st : TaskState} (state : d.state = some st)
    (isOver : d.isFinished = true) : (st == .suspended) = false := by
  rw [isFinished_of_state state] at isOver
  cases st <;> simp_all [TaskState.isTerminal]

namespace Tracks

variable {m : Manager} {past : List Record} {next : Nat}

/-- Beginning an interaction tells whether it goes on, and with whom. -/
theorem start (h : Tracks m past) (s : SessionId) (e : EntityId) (script : Metadata) (host : Host) :
    let told := m.start s e script host
    Tracks told.value.2 (⟨.start s e script, .started told.value.1, told.reports⟩ :: past) := by
  have exit := m.started (s := s) e script host
  generalize m.start s e script host = told at exit
  cases exit with
  | busy taken => exact h.silent rfl rfl
  | mute free code => exact h.silent rfl rfl
  | unmade free known made => exact h.silent rfl rfl
  | unstarted free known made ran => exact h.silent rfl rfl
  | finished free known made ran isOver =>
    obtain ⟨st, failure, state, -⟩ := (Context.launched made ran).rests rfl
    have idle := Context.beq_suspended_of_isOver state isOver
    exact h.gone (fun _ _ => rfl) (by simp [Record.isGoingOn?, state, idle])
      (Option.not_isSome_iff_eq_none.1 (Bool.eq_false_iff.1 free))
  | opened free known made ran isOver =>
    have new := Context.launched made ran
    obtain ⟨st, failure, state, rests⟩ := new.rests rfl
    obtain ⟨t, task, waits⟩ := Context.waits_of_rests state rests isOver
    exact h.begun rfl (by simp [Record.isGoingOn?, Context.state, task, waits])
      (by simp [Record.opens?, Context.state, task, waits, new.entity])

/-- An interaction that goes on is over or waits again, and the answer tells which. -/
theorem resume (h : Tracks m past) (sound : Sound m next past) (s : SessionId) (host : Host) :
    let told := m.resume s host
    Tracks told.value.2 (⟨.resume s, .resumed told.value.1, told.reports⟩ :: past) := by
  have exit := m.resumed s host
  generalize m.resume s host = told at exit
  cases exit with
  | absent free => exact h.silent rfl rfl
  | ended found went isOver =>
    have waits := (sound.entries s _ (m.mem_of_find? found)).waits
    obtain ⟨st, failure, rfl, state, -⟩ := Context.state_of_resume waits went
    have idle := Context.beq_suspended_of_isOver state isOver
    exact h.gone (fun k other => m.find?_erase_of_ne other) (by simp [Record.isGoingOn?, idle])
      m.find?_erase_self
  | @waiting c d _ h' rs found went isOver =>
    have waits := (sound.entries s c (m.mem_of_find? found)).waits
    obtain ⟨t, -, step, rfl⟩ := Context.step_of_resume waits went
    obtain ⟨st, failure, stepped⟩ := Context.stepped c t host
    rw [step] at stepped
    obtain ⟨t', (task : d.task = some t'), waits⟩ :=
      Context.waits_of_rests stepped.state stepped.rests isOver
    exact h.again rfl found (by simp [Record.isGoingOn?, Context.state, task, waits]) rfl
      stepped.entity

/-- An interaction that is ended is gone. -/
theorem abandon (h : Tracks m past) (s : SessionId) (host : Host) :
    let told := m.abandon s host
    Tracks told.value.2 (⟨.abandon s, .abandoned told.value.1, told.reports⟩ :: past) := by
  have exit := m.abandoned s host
  generalize m.abandon s host = told at exit
  cases exit with
  | absent free => exact h.silent rfl rfl
  | ended found => exact h.gone (fun k other => m.find?_erase_of_ne other) rfl m.find?_erase_self

end Tracks

/-! ## What can be seen of a manager -/

namespace Manager

variable {m : Manager} {past : List Record} {next : Nat}

/-- A session whose interaction cannot go on talks to nobody. -/
theorem resume_eq_none_iff (sound : Sound m next past) (s : SessionId) (h : Host) :
    (m.resume s h).value.1 = none ↔ m.isActive s = false := by
  have exit := m.resumed s h
  generalize m.resume s h = told at exit
  cases exit with
  | absent free => simp [isActive, free]
  | ended found went isOver =>
    have waits := (sound.entries s _ (m.mem_of_find? found)).waits
    obtain ⟨st, -, rfl, -⟩ := Context.state_of_resume waits went
    simp [isActive, found]
  | waiting found went isOver =>
    have waits := (sound.entries s _ (m.mem_of_find? found)).waits
    obtain ⟨st, -, rfl, -⟩ := Context.state_of_resume waits went
    simp [isActive, found]

/-- A session whose interaction cannot be ended talks to nobody. -/
theorem abandon_eq_false_iff (s : SessionId) (h : Host) :
    (m.abandon s h).value.1 = false ↔ m.isActive s = false := by
  have exit := m.abandoned s h
  generalize m.abandon s h = told at exit
  cases exit with
  | absent free => simp [isActive, free]
  | ended found => simp [isActive, found]

/-- The sessions that take part in interactions are those under which some are kept. -/
theorem isActive_iff (sound : Sound m next past) (s : SessionId) :
    m.isActive s = true ↔ s ∈ m.active.map Prod.fst := by
  constructor
  · intro active
    obtain ⟨c, found⟩ := Option.isSome_iff_exists.1 active
    exact List.mem_map_of_mem (m.mem_of_find? found)
  · intro mem
    obtain ⟨⟨k, c⟩, listed, rfl⟩ := List.mem_map.1 mem
    simp [isActive, sound.find? listed]

/-- There are as many interactions as sessions that take part in one. -/
theorem encard_isActive (sound : Sound m next past) :
    {s | m.isActive s = true}.encard = m.activeCount := by
  have listed : {s | m.isActive s = true} = ((m.active.map Prod.fst).toFinset : Set SessionId) := by
    ext s
    simpa using isActive_iff sound s
  rw [listed, Set.encard_coe_eq_coe_finsetCard, List.toFinset_card_of_nodup sound.sessions,
    List.length_map, activeCount]

end Manager

namespace World

variable (config : Config) (host : Host)

/-- A manager is in accord with its answers at any time. -/
theorem tracks (past : List Turn) :
    Tracks ((new config host).after past).manager ((new config host).records past) := by
  refine (after_induction (P := fun w past => Sound w.manager w.host.next.val past ∧
    Tracks w.manager past) ⟨sound config host [], fun _ => .silent⟩ ?_ past).2
  rintro w past ⟨n, files, call⟩ ⟨sound, tracks⟩
  refine ⟨(sound_serve sound _).1, ?_⟩
  cases call with
  | start s e script => simpa using tracks.start s e script _
  | resume s => simpa using tracks.resume sound s _
  | abandon s => simpa using tracks.abandon s _

/-- Who talks to whom is known from the answers so far.  A session talks to somebody
if and only if the last answer that tells how it stands says so, and then to the
entity of the last interaction of the session that was begun and not over at once.
There are as many interactions as sessions that talk to somebody, and just these can
go on and be ended. -/
theorem activity_eq_answers (past : List Turn) :
    let w := (new config host).after past
    let told := (new config host).records past
    (∀ s, w.manager.isActive s = true ↔ talks told s = true) ∧
    (∀ s, talks told s = true →
      ∃ e, partner? told s = some e ∧ w.manager.entityOf s = some e) ∧
    (∀ s, talks told s = false → w.manager.entityOf s = none) ∧
    {s | talks told s = true}.encard = w.manager.activeCount ∧
    ∀ s h, ((w.manager.resume s h).value.1 = none ↔ talks told s = false) ∧
      ((w.manager.abandon s h).value.1 = false ↔ talks told s = false) := by
  intro w told
  have sound : Sound w.manager w.host.next.val told := sound config host past
  have tracks : Tracks w.manager told := tracks config host past
  have same : talks told = w.manager.isActive := funext tracks.talks_eq
  rw [same]
  refine ⟨fun _ => Iff.rfl, fun s active => ?_, fun s idle => ?_, Manager.encard_isActive sound,
    fun s h => ⟨Manager.resume_eq_none_iff sound s h, Manager.abandon_eq_false_iff s h⟩⟩
  · obtain ⟨c, found⟩ := Option.isSome_iff_exists.1 active
    exact ⟨c.entity, tracks.partner?_eq found, by simp [Manager.entityOf, found]⟩
  · have none_ := Option.not_isSome_iff_eq_none.1 (Bool.eq_false_iff.1 idle)
    simp [Manager.entityOf, none_]

end World

end NpcDialog
