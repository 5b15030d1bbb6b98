import Mathlib.Data.List.Forall2
import NpcDialog.Dialog.Sink
import NpcDialog.Proofs.Dialog.Furnishing
import NpcDialog.Proofs.Dialog.Lifetimes

/-!
# Events and their receiver

A manager and any number of contexts send their events into one queue.  While there
is a receiver, it gets just what was told to the sink, in the same order.  And whether
there is one makes no difference to the dialogs: once it has gone, every operation
gives the same answer and leaves the same dialogs as if it were still there, and all
that is left of an event is a line in the log that it was dropped.

* `Transport.Fifo` — what is known of a queue.
* `Transport.deliver_eq` — what becomes of all that an operation tells.
* `Undropped` — no operation writes such lines by itself.
* `Dialogs`, `Site` — everything that shares one queue, with and without it.
* `receiver_unnoticed` — the result.
-/

namespace NpcDialog

/-! ## Queues -/

/-- A queue keeps events in order and loses none while there is a receiver, and takes
none when there is no receiver any more.  Here `waiting` tells which events wait, and
nothing if there is no receiver. -/
structure Transport.Fifo (t : Transport) (waiting : t.State → Option (List Event)) : Prop where
  /-- At first nothing waits. -/
  fresh : waiting t.fresh = some []
  /-- An event waits behind all others. -/
  send {queue : t.State} {es : List Event} (live : waiting queue = some es) (e : Event) :
    (t.send queue e).1 = true ∧ waiting (t.send queue e).2 = some (es ++ [e])
  /-- Without a receiver it is not taken. -/
  refuse {queue : t.State} (dead : waiting queue = none) (e : Event) :
    (t.send queue e).1 = false ∧ waiting (t.send queue e).2 = none
  /-- The first event is received. -/
  receive {queue : t.State} {es : List Event} (live : waiting queue = some es) :
    (t.receive queue).1 = es.head? ∧ waiting (t.receive queue).2 = some es.tail
  /-- The receiver goes away for ever. -/
  hangUp (queue : t.State) : waiting (t.hangUp queue) = none

theorem Transport.plain_fifo : plain.Fifo fun queue => queue where
  fresh := rfl
  send live e := by simp [plain, live]
  refuse dead e := by simp [plain, dead]
  receive live := by simp [plain, live]
  hangUp _ := rfl

namespace Channel

variable (c : Channel) (rs : List Report) (l : LogLine) (e : Event)

@[simp] theorem lines_nil : c.lines [] = [] := rfl

@[simp] theorem lines_line : c.lines (.line l :: rs) = l :: c.lines rs := rfl

theorem lines_event :
    c.lines (.event e :: rs) = (if c.isOpen then [] else [.eventDropped]) ++ c.lines rs := by
  obtain ⟨_ | _⟩ := c <;> rfl

@[simp] theorem lines_process (u : ProcessUse) : c.lines (.process u :: rs) = c.lines rs := rfl

/-- A channel with a receiver writes nothing into the log. -/
theorem lines_open : (⟨true⟩ : Channel).lines rs = Report.lines rs := by
  induction rs with
  | nil => rfl
  | cons r rs ih => cases r <;> simp [lines_event, ih]

end Channel

namespace Transport

variable {t : Transport} {waiting : t.State → Option (List Event)}

/-- All kinds of events are sent alike. -/
theorem notify_eq (queue : t.State) (e : Event) : t.notify queue e = t.forward queue e := by
  obtain ⟨s, e, _ | _ | _⟩ := e <;> rfl

/-- An event waits behind the others, or leaves a line in the log. -/
theorem forward_eq (fifo : t.Fifo waiting) (queue : t.State) (e : Event) :
    waiting (t.forward queue e).1 = (waiting queue).map (· ++ [e]) ∧
      (t.forward queue e).2 = if (waiting queue).isSome then [] else [.eventDropped] := by
  unfold forward
  cases state : waiting queue with
  | some es =>
    obtain ⟨taken, behind⟩ := fifo.send state e
    generalize t.send queue e = answer at taken behind
    obtain ⟨_, queue'⟩ := answer
    subst taken
    exact ⟨behind, rfl⟩
  | none =>
    obtain ⟨taken, behind⟩ := fifo.refuse state e
    generalize t.send queue e = answer at taken behind
    obtain ⟨_, queue'⟩ := answer
    subst taken
    exact ⟨behind, rfl⟩

/-- All events that an operation tells wait behind the others in the order in which it
told them, or leave lines in the log.  The induction is on what it tells. -/
theorem deliver_eq (fifo : t.Fifo waiting) (queue : t.State) (rs : List Report) :
    waiting (t.deliver queue rs).1 = (waiting queue).map (· ++ Report.events rs) ∧
      (t.deliver queue rs).2 = (⟨(waiting queue).isSome⟩ : Channel).lines rs := by
  induction rs generalizing queue with
  | nil => simp [deliver]
  | cons r rs ih =>
    cases r with
    | line l =>
      obtain ⟨behind, lines⟩ := ih queue
      exact ⟨behind, congrArg (l :: ·) lines⟩
    | process u =>
      obtain ⟨behind, lines⟩ := ih queue
      exact ⟨behind, lines⟩
    | event e =>
      obtain ⟨sent, told⟩ := forward_eq fifo queue e
      rw [← notify_eq] at sent told
      obtain ⟨behind, lines⟩ := ih (t.notify queue e).1
      constructor
      · show waiting (t.deliver (t.notify queue e).1 rs).1 = _
        rw [behind, sent, Option.map_map]
        simp [Function.comp_def]
      · show (t.notify queue e).2 ++ (t.deliver (t.notify queue e).1 rs).2 = _
        rw [lines, told, sent, Option.isSome_map, Channel.lines_event]

end Transport

/-! ## Lines about dropped events -/

/-- Is it a line about an event that was dropped? -/
def LogLine.isDropped : LogLine → Bool
  | .eventDropped => true
  | _ => false

theorem LogLine.isDropped_of_isOfCallback {l : LogLine} (h : l.isOfCallback) :
    l.isDropped = false := by
  cases l <;> simp_all [isOfCallback, isDropped]

/-- Nothing is said about dropped events. -/
def Undropped (rs : List Report) : Prop := ∀ l ∈ Report.lines rs, l.isDropped = false

namespace Undropped

variable {rs qs : List Report}

@[simp] theorem nil : Undropped [] := by simp [Undropped]

@[simp] theorem append_iff : Undropped (rs ++ qs) ↔ Undropped rs ∧ Undropped qs := by
  rw [Undropped, Report.lines_append, List.forall_mem_append]
  rfl

@[simp] theorem line_iff {l : LogLine} :
    Undropped (.line l :: rs) ↔ l.isDropped = false ∧ Undropped rs := by
  simp [Undropped]

@[simp] theorem event_iff {e : Event} : Undropped (.event e :: rs) ↔ Undropped rs := by
  simp [Undropped]

@[simp] theorem process_iff {u : ProcessUse} : Undropped (.process u :: rs) ↔ Undropped rs := by
  simp [Undropped]

/-- Without a receiver the log says the same as with one, and besides that every event
was dropped.  The induction is on what is told. -/
theorem lines_closed (h : Undropped rs) :
    ((⟨false⟩ : Channel).lines rs).filter (!·.isDropped) = Report.lines rs ∧
      ((⟨false⟩ : Channel).lines rs).countP LogLine.isDropped = (Report.events rs).length := by
  induction rs with
  | nil => exact ⟨rfl, rfl⟩
  | cons r rs ih =>
    cases r with
    | line l =>
      obtain ⟨other, rest⟩ := line_iff.1 h
      obtain ⟨lines, count⟩ := ih rest
      simp only [Channel.lines_line, Report.lines_line, Report.events_line]
      exact ⟨by simpa [other] using lines, by simpa [other] using count⟩
    | process u => exact ih (process_iff.1 h)
    | event e =>
      obtain ⟨lines, count⟩ := ih (event_iff.1 h)
      simp only [Channel.lines_event, Report.lines_event, Report.events_event]
      exact ⟨by simpa [LogLine.isDropped] using lines,
        by simp [List.countP_cons, LogLine.isDropped, count]⟩

end Undropped

namespace Context

variable (c : Context) (h : Host)

theorem undropped_step (t : Task) : Undropped (c.step t h).reports := by
  obtain ⟨st, failure, went⟩ := stepped c t h
  obtain ⟨calls, lines, callbacks⟩ := went.lines
  intro l mem
  rw [lines, List.mem_append] at mem
  rcases mem with call | about
  · exact LogLine.isDropped_of_isOfCallback (callbacks l call)
  · cases failure <;> simp [outcome] at about
    · simp [about, LogLine.isDropped]
    · rcases about with rfl | rfl <;> rfl

theorem undropped_create (config : Config) (s : SessionId) (e : EntityId) :
    Undropped (create config s e h).reports := by
  have exit := created config s e h
  generalize create config s e h = told at exit
  cases exit <;> simp [LogLine.isDropped]

theorem undropped_run (code : Bytecode) : Undropped (c.run code h).reports := by
  have exit := c.ran code h
  generalize c.run code h = told at exit
  cases exit with
  | refused st state waits => simp [LogLine.isDropped]
  | unstarted f m idle launched => cases f <;> simp [LaunchFault.line, LogLine.isDropped]
  | started m t idle launched task => exact undropped_step _ h t

theorem undropped_resume : Undropped (c.resume h).reports := by
  have exit := c.resumed h
  generalize c.resume h = told at exit
  cases exit with
  | absent none_ => exact .nil
  | stepped t task waits => exact undropped_step c h t
  | ignored t task idle => simp [LogLine.isDropped]

@[simp] theorem undropped_drop : Undropped (c.drop h).reports := by
  obtain ⟨calls, lines, callbacks⟩ := c.lines_drop h
  intro l mem
  rw [lines, List.mem_append] at mem
  rcases mem with bye | call
  · obtain rfl : l = .abandoning c.id := by
      unfold farewell at bye
      split at bye <;> simp_all
    rfl
  · exact LogLine.isDropped_of_isOfCallback (callbacks l call)

theorem undropped_serve (q : Request) : Undropped (c.serve q h).reports := by
  cases q with
  | run code => simpa [serve] using c.undropped_run h code
  | resume => simpa [serve] using c.undropped_resume h

end Context

namespace Manager

variable (m : Manager) (s : SessionId) (h : Host)

theorem undropped_start (e : EntityId) (script : Metadata) :
    Undropped (m.start s e script h).reports := by
  have exit := m.started (s := s) e script h
  generalize m.start s e script h = told at exit
  have first := Context.undropped_create h m.config s e
  cases exit with
  | busy taken => exact .nil
  | mute free code => simp [LogLine.isDropped]
  | unmade free known made => rwa [made] at first
  | @unstarted c d h₁ h₂ rs qs free code known made ran =>
    have second := c.undropped_run h₁ code
    rw [made] at first
    rw [ran] at second
    simp [first, second, LogLine.isDropped]
  | @finished c d h₁ h₂ rs qs free code known made ran isOver =>
    have second := c.undropped_run h₁ code
    rw [made] at first
    rw [ran] at second
    simp [first, second, LogLine.isDropped]
  | @opened c d h₁ h₂ rs qs free code known made ran isOver =>
    have second := c.undropped_run h₁ code
    rw [made] at first
    rw [ran] at second
    simp [first, second, LogLine.isDropped]

theorem undropped_resume : Undropped (m.resume s h).reports := by
  have exit := m.resumed s h
  generalize m.resume s h = told at exit
  cases exit with
  | absent free => exact .nil
  | @ended c d st h' rs found went isOver =>
    have step := c.undropped_resume h
    rw [went] at step
    simp [step, LogLine.isDropped]
  | @waiting c d st h' rs found went isOver =>
    have step := c.undropped_resume h
    rwa [went] at step

theorem undropped_abandon : Undropped (m.abandon s h).reports := by
  have exit := m.abandoned s h
  generalize m.abandon s h = told at exit
  cases exit <;> simp [LogLine.isDropped]

theorem undropped_answer (call : Call) : Undropped (m.answer call h).reports := by
  cases call with
  | start s e script => simpa [answer] using m.undropped_start s h e script
  | resume s => simpa [answer] using m.undropped_resume s h
  | abandon s => simpa [answer] using m.undropped_abandon s h

/-- The induction is on the interactions. -/
theorem undropped_drop : Undropped (m.drop h).reports := by
  unfold drop
  induction m.active generalizing h with
  | nil => exact .nil
  | cons p l ih => simpa using ih (p.2.drop h).host

end Manager

/-! ## Dialogs that share a queue -/

/-- A manager and contexts of others' making, which are known by numbers. -/
structure Dialogs where
  /-- The manager. -/
  manager : Manager
  /-- The other contexts. -/
  contexts : Nat → Option Context

/-- Something that is done with dialogs. -/
inductive Operation where
  /-- The manager is asked for something. -/
  | call (c : Call)
  /-- Another manager takes its place. -/
  | replace (config : Config)
  /-- A context is made, perhaps in the place of another one. -/
  | make (k : Nat) (config : Config) (s : SessionId) (e : EntityId)
  /-- A context is asked for something. -/
  | ask (k : Nat) (q : Request)
  /-- A context is thrown away. -/
  | discard (k : Nat)
  /-- The sink is told of an event by somebody else. -/
  | notify (e : Event)
  /-- Others take numbers for contexts and change the files. -/
  | outside (taken : Nat) (files : FileTree)

/-- The answer to an operation. -/
inductive Response where
  /-- To a call of the manager. -/
  | replied (reply : Reply)
  /-- To the making of a context. -/
  | made (fault : Option ExecutionFault)
  /-- To a request of a context. -/
  | answered (answer : Answer)
  /-- To anything else. -/
  | done

namespace Dialogs

variable (d : Dialogs)

/-- The dialogs with another context under a number. -/
def put (k : Nat) (c : Option Context) : Dialogs :=
  { d with contexts := fun j => if j = k then c else d.contexts j }

/-- Throws the context under a number away. -/
def dropAt (k : Nat) : Action Unit := (d.contexts k).elim (pure ()) Context.drop

/-- One operation. -/
def serve : Operation → Action (Response × Dialogs)
  | .call c => do
    let (reply, m) ← d.manager.answer c
    return (.replied reply, { d with manager := m })
  | .replace config => do
    d.manager.drop
    return (.done, { d with manager := .ofConfig config })
  | .make k config s e => do
    match ← Context.create config s e with
    | .error f => return (.made (some f), d)
    | .ok c => do
      d.dropAt k
      return (.made none, d.put k (some c))
  | .ask k q =>
    match d.contexts k with
    | none => return (.done, d)
    | some c => do
      let (answer, c) ← c.serve q
      return (.answered answer, d.put k (some c))
  | .discard k => do
    d.dropAt k
    return (.done, d.put k none)
  | .notify e => do
    Action.tellAll [.event e]
    return (.done, d)
  | .outside taken files => fun h => ⟨(.done, d), ⟨⟨h.next.val + taken⟩, files⟩, []⟩

theorem undropped_dropAt (k : Nat) (h : Host) : Undropped (d.dropAt k h).reports := by
  unfold dropAt
  cases d.contexts k <;> simp

/-- No operation says that events were dropped. -/
theorem undropped_serve (x : Operation) (h : Host) : Undropped (d.serve x h).reports := by
  cases x with
  | call c => simpa [serve] using d.manager.undropped_answer h c
  | replace config => simpa [serve] using d.manager.undropped_drop h
  | make k config s e =>
    have first := Context.undropped_create h config s e
    simp only [serve, Action.bind_apply]
    generalize Context.create config s e h = told at first
    obtain ⟨_ | c, h', rs⟩ := told
    · simpa using first
    · simpa [first] using d.undropped_dropAt k h'
  | ask k q =>
    simp only [serve]
    cases d.contexts k with
    | none => simp
    | some c => simpa using c.undropped_serve h q
  | discard k => simpa [serve] using d.undropped_dropAt k h
  | notify e => simp [serve]
  | outside taken files => exact .nil

end Dialogs

/-- Something that happens where dialogs share a queue. -/
inductive Incident where
  /-- Something is done with the dialogs. -/
  | operation (x : Operation)
  /-- The receiver takes an event, if there is one. -/
  | receive
  /-- The receiver goes away. -/
  | hangUp

/-- What comes of something that happens. -/
structure Outcome where
  /-- The answer. -/
  response : Response
  /-- What the host and the sink were told. -/
  told : List Report
  /-- The lines in the log. -/
  lines : List LogLine

/-- Everything that shares a queue. -/
structure Site (t : Transport) where
  /-- The dialogs. -/
  dialogs : Dialogs
  /-- The host. -/
  host : Host
  /-- The queue. -/
  queue : t.State
  /-- Is there a receiver? -/
  hasReceiver : Bool
  /-- What it has received. -/
  received : List Event

namespace Site

variable {t : Transport}

/-- A new site: a manager without interactions, no contexts, and a new queue. -/
def new (t : Transport) (config : Config) (host : Host) : Site t :=
  ⟨⟨.ofConfig config, fun _ => none⟩, host, t.fresh, true, []⟩

/-- One thing that happens. -/
def meet (site : Site t) : Incident → Outcome × Site t
  | .operation x =>
    let told := site.dialogs.serve x site.host
    let (queue, lines) := t.deliver site.queue told.reports
    (⟨told.value.1, told.reports, lines⟩,
      { site with dialogs := told.value.2, host := told.host, queue })
  | .receive =>
    if site.hasReceiver then
      let (e, queue) := t.receive site.queue
      (⟨.done, [], []⟩, { site with queue, received := site.received ++ e.toList })
    else (⟨.done, [], []⟩, site)
  | .hangUp => (⟨.done, [], []⟩, { site with queue := t.hangUp site.queue, hasReceiver := false })

/-- The site behind everything that happens, the earliest first. -/
def after (site : Site t) : List Incident → Site t
  | [] => site
  | x :: xs => (site.meet x).2.after xs

/-- What comes of everything that happens. -/
def outcomes (site : Site t) : List Incident → List Outcome
  | [] => []
  | x :: xs => (site.meet x).1 :: (site.meet x).2.outcomes xs

/-- All events of which the sink is told. -/
def notified (site : Site t) (xs : List Incident) : List Event :=
  (site.outcomes xs).flatMap fun o => Report.events o.told

theorem after_append (site : Site t) (xs ys : List Incident) :
    site.after (xs ++ ys) = (site.after xs).after ys := by
  induction xs generalizing site with
  | nil => rfl
  | cons x xs ih => exact ih _

variable {waiting : t.State → Option (List Event)} {site : Site t}

/-! ## With a receiver -/

/-- With a receiver: what it has received and what waits are together the events of
which the sink was told. -/
structure Live (waiting : t.State → Option (List Event)) (site : Site t) (told : List Event) :
    Prop where
  /-- There is a receiver. -/
  hasReceiver : site.hasReceiver = true
  /-- Nothing is lost, twice there or out of order. -/
  complete : ∃ es, waiting site.queue = some es ∧ site.received ++ es = told

/-- What comes of an operation that is done while there is a receiver. -/
theorem Live.meet (fifo : t.Fifo waiting) {told : List Event} (live : Live waiting site told)
    {x : Incident} (stays : x ≠ .hangUp) :
    Live waiting (site.meet x).2 (told ++ Report.events (site.meet x).1.told) ∧
      (site.meet x).1.lines = Report.lines (site.meet x).1.told := by
  obtain ⟨here, es, waits, rfl⟩ := live
  cases x with
  | operation x =>
    obtain ⟨behind, lines⟩ :=
      Transport.deliver_eq fifo site.queue (site.dialogs.serve x site.host).reports
    rw [waits] at behind lines
    exact ⟨⟨here, _, behind, (List.append_assoc ..).symm⟩, lines.trans (Channel.lines_open _)⟩
  | receive =>
    obtain ⟨first, rest⟩ := fifo.receive waits
    simp only [Site.meet, here, if_true]
    refine ⟨⟨rfl, es.tail, rest, ?_⟩, rfl⟩
    show (site.received ++ (t.receive site.queue).1.toList) ++ es.tail = _
    rw [first]
    cases es <;> simp
  | hangUp => exact absurd rfl stays

/-- The induction is on what happens. -/
theorem Live.after (fifo : t.Fifo waiting) {told : List Event} (live : Live waiting site told)
    {xs : List Incident} (stays : .hangUp ∉ xs) :
    Live waiting (site.after xs) (told ++ site.notified xs) ∧
      ∀ o ∈ site.outcomes xs, o.lines = Report.lines o.told := by
  induction xs generalizing site told with
  | nil => simpa [Site.after, notified, outcomes] using live
  | cons x xs ih =>
    obtain ⟨other, stays⟩ : x ≠ .hangUp ∧ .hangUp ∉ xs := by simpa [eq_comm] using stays
    obtain ⟨live, lines⟩ := live.meet fifo other
    obtain ⟨live, later⟩ := ih live stays
    refine ⟨?_, ?_⟩
    · simpa [notified, outcomes, Site.after] using live
    · simpa [outcomes] using ⟨lines, later⟩

/-- A receiver that takes events often enough gets all that wait.  The induction is on
how often it does. -/
theorem received_replicate (fifo : t.Fifo waiting) (here : site.hasReceiver = true)
    {es : List Event} (waits : waiting site.queue = some es) {n : Nat} (enough : es.length ≤ n) :
    (site.after (List.replicate n .receive)).received = site.received ++ es := by
  induction n generalizing site es with
  | zero =>
    obtain rfl := List.length_eq_zero_iff.1 (Nat.le_zero.1 enough)
    exact (List.append_nil _).symm
  | succ n ih =>
    obtain ⟨first, rest⟩ := fifo.receive waits
    let next : Site t := ⟨site.dialogs, site.host, (t.receive site.queue).2, true,
      site.received ++ es.head?.toList⟩
    have behind : (site.meet .receive).2 = next := by
      simp only [Site.meet, here, if_true, first]
      rfl
    have fewer : es.tail.length ≤ n := by
      rw [List.length_tail]
      omega
    have later : (next.after (List.replicate n .receive)).received = next.received ++ es.tail :=
      ih rfl rest fewer
    rw [List.replicate_succ, Site.after, behind, later]
    cases es <;> simp [next]

/-! ## Without a receiver -/

/-- Two sites with the same dialogs, of which the second has lost its receiver. -/
structure Apart (waiting : t.State → Option (List Event)) (kept lost : Site t) : Prop where
  /-- The dialogs are the same. -/
  dialogs : lost.dialogs = kept.dialogs
  /-- The host is the same. -/
  host : lost.host = kept.host
  /-- The queue takes nothing any more. -/
  dead : waiting lost.queue = none
  /-- The receiver has gone. -/
  deaf : lost.hasReceiver = false

end Site

/-- What comes of something with a receiver and without it: the answer is the same, the
sink is told the same, and the log says the same but for a line about each event. -/
structure Outcome.Unnoticed (kept lost : Outcome) : Prop where
  /-- The answers are the same. -/
  response : lost.response = kept.response
  /-- The sink is told the same. -/
  told : lost.told = kept.told
  /-- All other lines are the same. -/
  lines : lost.lines.filter (!·.isDropped) = kept.lines
  /-- There is a line for each event. -/
  dropped : lost.lines.countP LogLine.isDropped = (Report.events kept.told).length

namespace Site

variable {t : Transport} {waiting : t.State → Option (List Event)} {kept lost : Site t}

/-- Nobody notices the loss of the receiver in what happens next. -/
theorem Apart.meet (fifo : t.Fifo waiting) (apart : Apart waiting kept lost)
    {told : List Event} (live : Live waiting kept told) {x : Incident} (stays : x ≠ .hangUp) :
    Apart waiting (kept.meet x).2 (lost.meet x).2 ∧
      (lost.meet x).2.received = lost.received ∧ (kept.meet x).1.Unnoticed (lost.meet x).1 := by
  obtain ⟨dialogs, host, dead, deaf⟩ := apart
  have said := (live.meet fifo stays).2
  cases x with
  | operation x =>
    have same : lost.dialogs.serve x lost.host = kept.dialogs.serve x kept.host := by
      rw [dialogs, host]
    obtain ⟨behind, lines⟩ :=
      Transport.deliver_eq fifo lost.queue (lost.dialogs.serve x lost.host).reports
    rw [dead] at behind lines
    obtain ⟨others, dropped⟩ := (lost.dialogs.undropped_serve x lost.host).lines_closed
    refine ⟨⟨?_, ?_, behind, deaf⟩, rfl, ?_, ?_, ?_, ?_⟩
    · exact congrArg (·.value.2) same
    · exact congrArg Told.host same
    · exact congrArg (·.value.1) same
    · exact congrArg Told.reports same
    · rw [said]
      exact (congrArg (List.filter _) lines).trans
        (others.trans (congrArg (Report.lines ·.reports) same))
    · exact (congrArg (List.countP _) lines).trans
        (dropped.trans (congrArg (Report.events ·.reports |>.length) same))
  | receive =>
    have here := live.hasReceiver
    simp only [Site.meet, here, deaf, if_true, Bool.false_eq_true, if_false]
    exact ⟨⟨dialogs, host, dead, deaf⟩, trivial, rfl, rfl, rfl, rfl⟩
  | hangUp => exact absurd rfl stays

/-- The induction is on what happens. -/
theorem Apart.after (fifo : t.Fifo waiting) (apart : Apart waiting kept lost)
    {told : List Event} (live : Live waiting kept told) {ys : List Incident}
    (stays : .hangUp ∉ ys) :
    Apart waiting (kept.after ys) (lost.after ys) ∧ (lost.after ys).received = lost.received ∧
      List.Forall₂ Outcome.Unnoticed (kept.outcomes ys) (lost.outcomes ys) := by
  induction ys generalizing kept lost told with
  | nil => exact ⟨apart, rfl, .nil⟩
  | cons y ys ih =>
    obtain ⟨other, stays⟩ : y ≠ .hangUp ∧ .hangUp ∉ ys := by simpa [eq_comm] using stays
    obtain ⟨again, silent, unnoticed⟩ := apart.meet fifo live other
    obtain ⟨apart, silent', later⟩ := ih again (live.meet fifo other).1 stays
    exact ⟨apart, silent'.trans silent, .cons unnoticed later⟩

end Site

/-- While there is a receiver, it gets the events of which the sink is told, in the same
order and each of them once, as soon as it takes them.  And nobody notices when it goes
away, whatever happened before and happens then: the dialogs and the host are the same
as if it were still there, all answers are the same, and nothing arrives any more, but
the log has a line about each event that was dropped. -/
theorem receiver_unnoticed {t : Transport} {waiting : t.State → Option (List Event)}
    (fifo : t.Fifo waiting) (config : Config) (host : Host) (xs : List Incident)
    (stays : .hangUp ∉ xs) :
    let site := Site.new t config host
    ((site.after xs).received <+: site.notified xs ∧
      (∀ n, (site.notified xs).length ≤ n →
        (site.after (xs ++ List.replicate n .receive)).received = site.notified xs) ∧
      ∀ o ∈ site.outcomes xs, o.lines = Report.lines o.told) ∧
    ∀ ys, .hangUp ∉ ys →
      let kept := site.after xs
      let lost := site.after (xs ++ [.hangUp])
      (lost.after ys).dialogs = (kept.after ys).dialogs ∧
      (lost.after ys).host = (kept.after ys).host ∧
      (lost.after ys).received = kept.received ∧
      List.Forall₂ Outcome.Unnoticed (kept.outcomes ys) (lost.outcomes ys) := by
  intro site
  have first : Site.Live waiting site [] := ⟨rfl, [], fifo.fresh, rfl⟩
  obtain ⟨live, lines⟩ := first.after fifo stays
  rw [List.nil_append] at live
  refine ⟨?_, fun ys stays => ?_⟩
  · obtain ⟨here, es, waits, all⟩ := live
    refine ⟨⟨es, all⟩, fun n enough => ?_, lines⟩
    have room : es.length ≤ n := by
      rw [← all, List.length_append] at enough
      omega
    rw [Site.after_append, Site.received_replicate fifo here waits room, all]
  · intro kept lost
    have gone : lost = (kept.meet .hangUp).2 := Site.after_append site xs [.hangUp]
    have apart : Site.Apart waiting kept lost := by
      rw [gone]
      exact ⟨rfl, rfl, fifo.hangUp _, rfl⟩
    obtain ⟨apart, silent, unnoticed⟩ := apart.after fifo live stays
    exact ⟨apart.dialogs, apart.host, silent.trans (by rw [gone]; rfl), unnoticed⟩

/-! ## A conversation without its receiver -/

/-- A site with one context, to which nothing happened yet. -/
def Site.withContext (t : Transport) (config : Config) (c : Context) (h : Host) : Site t :=
  ⟨(Dialogs.mk (.ofConfig config) fun _ => none).put 0 (some c), h, t.fresh, true, []⟩

/-- It is what a new site comes to when the context is made. -/
theorem Site.after_make {t : Transport} {config : Config} {h : Host} {s : SessionId} {e : EntityId}
    {c : Context} (furnished : Context.furnish config s e h = some c) (xs : List Incident) :
    (Site.new t config h).after (.operation (.make 0 config s e) :: xs) =
      (Site.withContext t config c ⟨⟨h.next.val + 1⟩, h.files⟩).after xs := by
  rw [after, meet]
  simp only [Site.new, Dialogs.serve, Action.bind_apply, Context.create_of_furnish furnished]
  rfl

/-- A script that says something, and something else when the player has advanced. -/
def parting : String := "mes('Hello')\nnext()\nmes('Goodbye')\n"

/-- It is run in a new context, and the receiver takes what it hears first. -/
def partingBegun (code : Bytecode) : List Incident :=
  [.operation (.make 0 .default ⟨1⟩ ⟨2⟩), .operation (.ask 0 (.run code)), .receive]

/-- It goes on. -/
def partingEnded : List Incident := [.operation (.ask 0 .resume)]

/-- What is received of it and what is told later. -/
theorem parting_heard :
    (do
      let code ← Bytecode.ofSource? parting
      let c ← Context.furnish .default ⟨1⟩ ⟨2⟩ (.start .empty)
      let site := Site.withContext .plain .default c ⟨⟨2⟩, .empty⟩
      let kept := site.after [.operation (.ask 0 (.run code)), .receive]
      let lost := site.after [.operation (.ask 0 (.run code)), .receive, .hangUp]
      return (kept.received, (kept.outcomes partingEnded).map (Report.events ·.told),
        (lost.outcomes partingEnded).map (·.lines.countP LogLine.isDropped))) =
      some ([⟨⟨1⟩, ⟨2⟩, .message "Hello"⟩], [[⟨⟨1⟩, ⟨2⟩, .message "Goodbye"⟩]], [1]) := by
  decide +kernel

/-- The receiver goes away in the middle of a conversation.  What is said then does not
arrive, and the conversation does not notice. -/
theorem receiver_unnoticed_plain :
    ∃ code, Bytecode.ofSource? parting = some code ∧
      let site := Site.new .plain .default (.start .empty)
      let kept := site.after (partingBegun code)
      let lost := site.after (partingBegun code ++ [.hangUp])
      kept.received = [⟨⟨1⟩, ⟨2⟩, .message "Hello"⟩] ∧
      (lost.after partingEnded).received = kept.received ∧
      List.Forall₂ Outcome.Unnoticed (kept.outcomes partingEnded) (lost.outcomes partingEnded) ∧
      (kept.outcomes partingEnded).map (Report.events ·.told) =
        [[⟨⟨1⟩, ⟨2⟩, .message "Goodbye"⟩]] ∧
      (lost.outcomes partingEnded).map (·.lines.countP LogLine.isDropped) = [1] := by
  obtain ⟨code, known, heard⟩ := Option.bind_eq_some_iff.1 parting_heard
  obtain ⟨c, furnished, heard⟩ := Option.bind_eq_some_iff.1 heard
  have heard := Option.some.inj heard
  have made (xs : List Incident) :=
    Site.after_make (t := .plain) furnished (.operation (.ask 0 (.run code)) :: .receive :: xs)
  rw [Prod.mk.injEq, Prod.mk.injEq] at heard
  obtain ⟨received, told, dropped⟩ := heard
  obtain ⟨-, unnoticed⟩ := receiver_unnoticed Transport.plain_fifo .default (.start .empty)
    (partingBegun code) (by simp [partingBegun])
  obtain ⟨-, -, silent, same⟩ := unnoticed partingEnded (by simp [partingEnded])
  refine ⟨code, known, ?_, silent, same, ?_, ?_⟩
  · exact (congrArg Site.received (made [])).trans received
  · exact (congrArg (fun kept => (kept.outcomes partingEnded).map (Report.events ·.told)) (made [])).trans told
  · exact (congrArg (fun lost => (lost.outcomes partingEnded).map
      (·.lines.countP LogLine.isDropped)) (made [.hangUp])).trans dropped

end NpcDialog
