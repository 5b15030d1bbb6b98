import Mathlib.Data.List.Forall2
import NpcDialog.Proofs.Dialog.Replay
import NpcDialog.Proofs.Machine.LockstepRuns
import NpcDialog.Proofs.Script.Entries

/-!
# Contexts behind a veil

Two contexts whose machines are the same behind a veil are asked for the same.  Then they
give the same answers, and stay the same behind the veil, as long as nothing comes to light
of what it leaves out of sight.

* `Context.Veiled` — contexts that are the same behind a veil.
* `Context.Follows` — what becomes of two contexts.
* `Context.Veiled.step`, `Context.Veiled.run`, `Context.Veiled.serve` — steps and requests.
-/

namespace NpcDialog

open Lua Extraction

namespace Context

/-- Two contexts that are the same behind a veil. -/
structure Veiled (V : Veil) (c d : Context) : Prop where
  id : c.id = d.id
  task : c.task = d.task
  conversation : c.conversation = d.conversation
  machine : V.Same c.machine d.machine

/-- What is asked of two contexts: the same, but code may have its notes on the one side
only if they are out of sight. -/
inductive Leaner (V : Veil) : Request → Request → Prop
  /-- The same is asked for. -/
  | same (q : Request) : Leaner V q q
  /-- Code is to be run. -/
  | run (bare : V.bare = true) (f : FunctionCode) :
    Leaner V (.run (archive f false)) (.run (archive f true))

/-- What becomes of two contexts that are the same behind a veil: if nothing comes to light
in one of them, then it is the same but for what is out of sight and for lines of the log. -/
structure Follows (V : Veil) (c d : Context) (x y : Told Context) : Prop where
  left : V.revealed c.machine ≤ V.revealed x.value.machine
  right : V.revealed d.machine ≤ V.revealed y.value.machine
  quiet : V.revealed x.value.machine = V.revealed c.machine ∨
      V.revealed y.value.machine = V.revealed d.machine →
    Veiled V x.value y.value ∧ x.host = y.host ∧ Report.events x.reports = Report.events y.reports

variable {V : Veil} {c d : Context}

theorem Veiled.refl (V : Veil) (c : Context) : Veiled V c c := ⟨rfl, rfl, rfl, rfl⟩

theorem Veiled.trans {c' : Context} (h : Veiled V c d) (h' : Veiled V d c') : Veiled V c c' :=
  ⟨h.id.trans h'.id, h.task.trans h'.task, h.conversation.trans h'.conversation,
    Eq.trans h.machine h'.machine⟩

theorem Veiled.state (h : Veiled V c d) : c.state = d.state := by
  rw [Context.state, Context.state, h.task]

theorem Veiled.revealed (h : Veiled V c d) : V.revealed c.machine = V.revealed d.machine :=
  Veil.revealed_of_shown h.machine.shown.symm

/-- What is in one machine, beside another one, comes from the drift of its memory. -/
theorem Veiled.of_drift (light : V.light = true) (c : Context) (n : Int) :
    Veiled V { c with machine := { c.machine with drift := n } } c := by
  refine ⟨rfl, rfl, rfl, ?_⟩
  simp only [Veil.Same, Veil.machine, light, if_true]

theorem Veiled.follows (h : Veiled V c d) (host : Host) (ls ls' : List LogLine) :
    Follows V c d ⟨c, host, ls.map .line⟩ ⟨d, host, ls'.map .line⟩ :=
  ⟨Nat.le_refl _, Nat.le_refl _, fun _ => ⟨h, rfl, by simp⟩⟩

/-- A step: the same turn, in the same conversation. -/
theorem Veiled.step (h : Veiled V c d) (t : Task) (host : Host) :
    Follows V c d (c.step t host) (d.step t host) := by
  have begun : V.Same (withFiles c.machine host.files) (withFiles d.machine host.files) :=
    h.machine.map (f := fun m => withFiles m host.files) fun _ => rfl
  have turned := begun.turn t.thread c.conversation.quiet
  have left : V.revealed (withFiles c.machine host.files) = V.revealed c.machine := rfl
  have right : V.revealed d.machine = V.revealed c.machine := h.revealed.symm
  simp only [Context.step, Action.bind_apply, Action.files_apply, ← h.conversation]
  generalize turn t.thread (withFiles c.machine host.files) c.conversation.quiet = x at turned
  generalize turn t.thread (withFiles d.machine host.files) c.conversation.quiet = y at turned
  obtain ⟨⟨state, failure, m⟩, v⟩ := x
  obtain ⟨⟨state', failure', n⟩, w⟩ := y
  obtain ⟨grows, grows', same⟩ := turned
  rw [left] at grows grows' same
  refine ⟨grows, by rwa [right], fun quiet => ?_⟩
  rw [right] at quiet
  obtain ⟨rfl, rfl, ended⟩ : v = w ∧ state = state' ∧ V.Same m n := same quiet
  have files : m.heap.files = n.heap.files := (ended.eq (fun m => m.heap.files) fun _ => rfl).symm
  refine ⟨⟨h.id, rfl, rfl, ended⟩, ?_, ?_⟩
  · simp [files]
  · simp

/-- Code is read alike, but for notes. -/
theorem Leaner.read {code code' : Bytecode} (leaner : Leaner V (.run code) (.run code')) :
    (∃ why, Archive.read code.bytes = .error why ∧ Archive.read code'.bytes = .error why) ∨
      ∃ f g : Chunk, Archive.read code.bytes = .ok f ∧ Archive.read code'.bytes = .ok g ∧
        V.code f = V.code g := by
  cases leaner with
  | same =>
    cases Archive.read code.bytes with
    | error why => exact .inl ⟨why, rfl, rfl⟩
    | ok f => exact .inr ⟨f, f, rfl, rfl, rfl⟩
  | run bare f =>
    refine .inr ⟨f, f.strip, Archive.read_archive f, Archive.read_archive f.strip, ?_⟩
    simp only [Veil.code, bare, if_true]
    exact f.strip_strip.symm

theorem isOverfull_veil (V : Veil) (m : Machine) : (V.machine m).isOverfull = m.isOverfull := by
  simp only [Machine.isOverfull, Machine.liveBytes_veil]
  rfl

/-- A machine has the same code in it as another one, but for notes. -/
theorem loadChunk_veiled {m n : Machine} (same : V.Same m n) {f g : Chunk} (alike : V.code f = V.code g) :
    (m.loadChunk f).1 = (n.loadChunk g).1 ∧ V.Same (m.loadChunk f).2 (n.loadChunk g).2 := by
  have globals : n.heap.globals = m.heap.globals := same.eq (fun m => m.heap.globals) fun _ => rfl
  obtain ⟨value, loaded⟩ := m.install_alike V same alike (.table m.heap.globals)
  rw [Machine.loadChunk, Machine.loadChunk, globals]
  exact ⟨value, loaded⟩

/-- Code that cannot be read leaves traces of its size, which is the same unless notes are
out of sight, and then the traces are, too. -/
theorem Leaner.littered {m n : Machine} (same : V.Same m n) {code code' : Bytecode}
    (leaner : Leaner V (.run code) (.run code')) :
    V.Same (m.littered (Heap.stringCost code.bytes)) (n.littered (Heap.stringCost code'.bytes)) := by
  refine same.drift fun heavy => ?_
  have drift : n.drift = m.drift := by
    simpa [Veil.machine, heavy] using (congrArg Machine.drift same).symm
  cases leaner with
  | same => rw [drift]
  | run bare f => rw [Veil.light_of_bare bare] at heavy; cases heavy

/-- On both sides there is a coroutine for the code, or on neither. -/
theorem launch_veiled {m n : Machine} (same : V.Same m n) {code code' : Bytecode}
    (leaner : Leaner V (.run code) (.run code')) :
    V.Same (launch code m).2 (launch code' n).2 ∧
      (launch code m).2.shown = m.shown ∧ (launch code' n).2.shown = n.shown ∧
      ((∃ f, (launch code m).1 = .error f ∧ (launch code' n).1 = .error f) ∨
        ∃ thread, (launch code m).1 = .ok thread ∧ (launch code' n).1 = .ok thread) := by
  have live : n.liveBytes = m.liveBytes := same.eq Machine.liveBytes fun m => m.liveBytes_veil V
  have used : n.heap.used = m.heap.used := same.eq (fun m => m.heap.used) fun _ => rfl
  have squeezed : V.Same m.squeezed n.squeezed := same.drift fun _ => by rw [live, used]
  rcases leaner.read with ⟨why, left, right⟩ | ⟨f, g, left, right, alike⟩
  · simp only [launch, left, right]
    exact ⟨leaner.littered same, rfl, rfl, .inl ⟨_, rfl, rfl⟩⟩
  · obtain ⟨value, loaded⟩ := loadChunk_veiled same alike
    have full : (n.loadChunk g).2.isOverfull = (m.loadChunk f).2.isOverfull :=
      loaded.eq Machine.isOverfull (isOverfull_veil V)
    have room : ((n.loadChunk g).2.charged? Machine.threadCost).isNone =
        ((m.loadChunk f).2.charged? Machine.threadCost).isNone :=
      loaded.eq (fun k => (k.charged? Machine.threadCost).isNone) fun k => by
        rw [k.charged?_veil V, Option.isNone_map]
    have shown : (m.loadChunk f).2.shown = m.shown := rfl
    have shown' : (n.loadChunk g).2.shown = n.shown := rfl
    simp only [launch, left, right, full, room]
    rw [← value]
    generalize (m.loadChunk f).1 = v
    generalize (m.loadChunk f).2 = k at loaded shown
    generalize (n.loadChunk g).2 = k' at loaded shown'
    split
    · exact ⟨squeezed, rfl, rfl, .inl ⟨_, rfl, rfl⟩⟩
    split
    · exact ⟨squeezed, rfl, rfl, .inl ⟨_, rfl, rfl⟩⟩
    have begun := k.newThread_veil V v
    rw [loaded, k'.newThread_veil V v] at begun
    obtain ⟨thread, machines⟩ := Prod.mk.inj begun
    exact ⟨machines.symm, shown, shown', .inr ⟨_, rfl, by rw [thread]⟩⟩

/-- Running code: it is refused or not started on both sides, or its first steps follow. -/
theorem Veiled.run (h : Veiled V c d) {code code' : Bytecode}
    (leaner : Leaner V (.run code) (.run code')) (host : Host) :
    (c.run code host).value.1 = (d.run code' host).value.1 ∧
      Follows V c d ⟨(c.run code host).value.2, (c.run code host).host, (c.run code host).reports⟩
        ⟨(d.run code' host).value.2, (d.run code' host).host, (d.run code' host).reports⟩ := by
  unfold Context.run
  rw [h.state]
  cases d.state.filter fun s => !s.isTerminal with
  | some st => exact ⟨rfl, h.follows host [_] [_]⟩
  | none =>
    obtain ⟨same, shown, shown', outcome⟩ := launch_veiled h.machine leaner
    rcases left : launch code c.machine with ⟨x, m⟩
    rcases right : launch code' d.machine with ⟨y, n⟩
    rw [left, right] at same outcome
    rw [left] at shown
    rw [right] at shown'
    have after : Veiled V { c with machine := m } { d with machine := n } :=
      ⟨h.id, h.task, h.conversation, same⟩
    have started := Veil.revealed_of_shown (V := V) shown
    have started' := Veil.revealed_of_shown (V := V) shown'
    rcases outcome with ⟨f, rfl, rfl⟩ | ⟨thread, rfl, rfl⟩
    · have follows := after.follows host [f.line c.id] [f.line d.id]
      exact ⟨rfl, started ▸ follows.left, started' ▸ follows.right, started ▸ started' ▸ follows.quiet⟩
    · have stepped := after.step ⟨thread, .created, 0⟩ host
      obtain ⟨grows, grows', quiet⟩ := stepped
      dsimp only at grows grows' quiet
      rw [started] at grows quiet
      rw [started'] at grows' quiet
      simp only [Action.bind_apply, Action.pure_apply, List.append_nil, true_and]
      exact ⟨grows, grows', quiet⟩

/-- Letting a script go on. -/
theorem Veiled.resume (h : Veiled V c d) (host : Host) :
    Follows V c d
        ⟨(c.resume host).value.2, (c.resume host).host, (c.resume host).reports⟩
        ⟨(d.resume host).value.2, (d.resume host).host, (d.resume host).reports⟩ ∧
      ((c.resume host).value.2.task = (d.resume host).value.2.task →
        (c.resume host).value.1 = (d.resume host).value.1) := by
  unfold Context.resume
  rw [h.task]
  cases task : d.task with
  | none => exact ⟨h.follows host [] [], fun _ => rfl⟩
  | some t =>
    by_cases waits : t.state = .suspended
    · have stepped := h.step t host
      simp only [waits, beq_self_eq_true, if_true, Action.bind_apply, Action.pure_apply,
        List.append_nil]
      exact ⟨stepped, fun same => by rw [Context.state, Context.state, same]⟩
    · have idle : (t.state == TaskState.suspended) = false := by simpa using waits
      simp only [idle, Bool.false_eq_true, if_false, Action.bind_apply, Action.pure_apply,
        Action.log_apply, List.append_nil, implies_true, and_true]
      exact h.follows host [_] [_]

/-- What becomes of two contexts that are the same behind a veil at a request. -/
theorem Veiled.serve (h : Veiled V c d) {q r : Request} (leaner : Leaner V q r) (host : Host) :
    V.revealed c.machine ≤ V.revealed (c.serve q host).value.2.machine ∧
      V.revealed d.machine ≤ V.revealed (d.serve r host).value.2.machine ∧
      (V.revealed (c.serve q host).value.2.machine = V.revealed c.machine ∨
          V.revealed (d.serve r host).value.2.machine = V.revealed d.machine →
        (c.serve q host).value.1 = (d.serve r host).value.1 ∧
          (c.serve q host).host = (d.serve r host).host ∧
          Report.events (c.serve q host).reports = Report.events (d.serve r host).reports ∧
          Veiled V (c.serve q host).value.2 (d.serve r host).value.2) := by
  cases q with
  | run code =>
    obtain ⟨code', rfl⟩ : ∃ code', r = .run code' := by
      cases leaner <;> exact ⟨_, rfl⟩
    obtain ⟨answer, grows, grows', same⟩ := h.run leaner host
    refine ⟨grows, grows', fun quiet => ?_⟩
    obtain ⟨after, hosts, events⟩ := same quiet
    exact ⟨congrArg Answer.ran answer, hosts, by simpa [Context.serve] using events, after⟩
  | resume =>
    cases leaner
    obtain ⟨⟨grows, grows', same⟩, answer⟩ := h.resume host
    refine ⟨grows, grows', fun quiet => ?_⟩
    obtain ⟨after, hosts, events⟩ := same quiet
    exact ⟨congrArg Answer.resumed (answer after.task), hosts,
      by simpa [Context.serve] using events, after⟩

/-- Nothing that was shown is taken back. -/
theorem revealed_le_serve (V : Veil) (c : Context) (q : Request) (h : Host) :
    V.revealed c.machine ≤ V.revealed (c.serve q h).value.2.machine :=
  ((Veiled.refl V c).serve (.same q) h).1

end Context

end NpcDialog
