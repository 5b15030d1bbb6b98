import NpcDialog.Proofs.Code.Archive
import NpcDialog.Proofs.Dialog.Advance
import NpcDialog.Proofs.Dialog.Guards
import NpcDialog.Proofs.Dialog.Tasks
import NpcDialog.Proofs.Machine.Occurs

/-!
# The loaders of a context take texts only

The functions that a context has for loading code are in place when it is made, and so
they are in every machine that occurs in its life: in each step of a script, in all runs
that are in the middle of others, and where a failure is shown.  So each of their calls
comes to what such a call comes to while they are in place.

* `Context.Steps`, `Context.Begins`, `Context.Meets` — the machines in the life of a
  context.
* `Context.inherits_of_meets` — they have its functions and its sealed variables.
* `Machine.TakesTexts` — what calls of the loaders come to.
* `loaders_take_texts` — the result.
-/

namespace NpcDialog

open Lua Lua.Machine
open Bytes (ofText)

namespace Context

variable {c : Context}

/-! ## The life of a context -/

theorem inherits_resumeThread (thread : Nat) (m : Machine) :
    Conversing.Ensures (fun answer => m.Inherits answer.2) (m.resumeThread thread #[]) := by
  have ready : m.Inherits { m.rested with depth := 0 } := (Inherits.rested m).trans (.of_core rfl)
  have runs := bracketed_preserves.runWithin levels
  intro v
  exact ready.trans (bracketed_preserves.resume runs thread #[] { m.rested with depth := 0 } v).toInherits

/-- What a turn leaves inherits from the machine in which the coroutine was given it. -/
theorem inherits_turn (thread : Nat) (m : Machine) :
    Conversing.Ensures (fun answer => m.Inherits answer.2.2) (turn thread m) := by
  refine .bind (inherits_resumeThread thread m) fun answer after => ?_
  obtain ⟨result, m'⟩ := answer
  cases result with
  | ok vs => exact .pure after
  | error f =>
    refine .bind (bracketed_preserves.failureOf_or f m') fun answer shown => .pure ?_
    obtain ⟨e, m''⟩ := answer
    rcases shown with rfl | shown
    · exact after
    · exact after.trans ((Inherits.rested m').trans shown.toInherits)

theorem inherits_step (c : Context) (t : Task) (h : Host) :
    c.machine.Inherits (c.step t h).value.machine := by
  have turned := inherits_turn t.thread (withFiles c.machine h.files) c.conversation.quiet
  rw [step, Action.bind_apply, Action.files_apply]
  generalize turn t.thread (withFiles c.machine h.files) c.conversation.quiet = x at turned
  obtain ⟨⟨state, failure, m⟩, v⟩ := x
  exact (Inherits.withFiles c.machine h.files).trans turned

/-- Code is loaded, and gets a coroutine. -/
theorem inherits_launch {code : Bytecode} {m m' : Machine} {thread : Nat}
    (launched : launch code m = (.ok thread, m')) : m.Inherits m' := by
  obtain ⟨chunk, -, -, -, made⟩ := launch_eq_ok.1 launched
  obtain rfl := congrArg Prod.snd made
  exact (Inherits.of_change (.install chunk _)).trans (bracketed_preserves.newThread _ _).toInherits

theorem inherits_serve (c : Context) (q : Request) (h : Host) :
    c.machine.Inherits (c.serve q h).value.2.machine := by
  cases q with
  | run code =>
    show c.machine.Inherits (c.run code h).value.2.machine
    have exit := c.ran code h
    generalize c.run code h = told at exit
    cases exit with
    | refused st state waits => exact .refl _
    | unstarted f m idle launched =>
      obtain ⟨n, rfl⟩ := launch_error launched
      exact .of_core rfl
    | started m t idle launched task =>
      exact (inherits_launch launched).trans (inherits_step { c with machine := m } t h)
  | resume =>
    show c.machine.Inherits (c.resume h).value.2.machine
    have exit := c.resumed h
    generalize c.resume h = told at exit
    cases exit with
    | absent none_ => exact .refl _
    | stepped t task waits => exact inherits_step c t h
    | ignored t task idle => exact .refl _

/-- The induction is on the requests. -/
theorem inherits_tally (c : Context) (n : Tally) (requests : List (Host × Request)) :
    c.machine.Inherits (c.tally n requests).1.machine := by
  induction requests generalizing c n with
  | nil => exact .refl _
  | cons request rest ih =>
    obtain ⟨h, q⟩ := request
    exact (inherits_serve c q h).trans (ih _ _)

/-! ## What occurs in the life of a context -/

/-- A request makes the task `t` take a step, in the context that is the second one
here. -/
inductive Steps (c : Context) : Request → Context → Task → Prop
  /-- It starts a script. -/
  | started {code : Bytecode} {thread : Nat} {m : Machine}
    (idle : c.state.filter (fun s => !s.isTerminal) = none)
    (launched : launch code c.machine = (.ok thread, m)) :
    Steps c (.run code) { c with machine := m } ⟨thread, .created, 0⟩
  /-- It lets the script go on. -/
  | goesOn {t : Task} (task : c.task = some t) (waits : t.state = .suspended) : Steps c .resume c t

/-- The machine that is about to show a value. -/
def toShow (m : Machine) (v : Value) : Machine :=
  { m.guarded with control := .call (.builtin .tostring) #[v] 1 .onward false }

/-- The variables that a failed call from outside left are closed. -/
def closeLeft (m : Machine) (f : Fault) (run : Runner) : Conversing (Option Value × Machine) :=
  let m := m.guarded.closeCells 0
  closeAll run 0 m.closers.length (some f.toValue) (m.showing f.isPlaced)

/-- In a step of the task `t` some machine is run in some conversation. -/
inductive Begins (c : Context) (t : Task) (h : Host) : Machine → Conversation → Prop
  /-- The script has a turn. -/
  | turn {m : Machine} (entered : (c.ready h).entered t.thread #[] = .ok m) :
    Begins c t h m c.conversation.quiet
  /-- It has failed with a value that is no string, and the value is shown. -/
  | shows {f : Fault} {m : Machine} {v : Conversation}
    (failed : (withFiles c.machine h.files).resumeThread t.thread #[] c.conversation.quiet =
      ((.error f, m), v)) (raw : ∀ s, f.toValue ≠ .str s) : Begins c t h (toShow m f.toValue) v
  /-- That has failed as well, and variables that it left are closed. -/
  | closes {m m' m'' : Machine} {v v' v'' : Conversation} {f : Fault} (shows : Begins c t h m v)
    (failed : Machine.run m v = ((.failed f, m'), v'))
    (begun : Consults (closeLeft m' f) Machine.run v' m'' v'') : Begins c t h m'' v''

theorem inherits_of_begins {t : Task} {h : Host} {m : Machine} {v : Conversation}
    (begins : c.Begins t h m v) : c.machine.Inherits m := by
  have filed := Inherits.withFiles c.machine h.files
  induction begins with
  | turn entered =>
    have ready : c.machine.Inherits (c.ready h) := (filed.trans (.rested _)).trans (.of_core rfl)
    exact ready.trans (.entered entered)
  | @shows f m v failed raw =>
    have resumed := inherits_resumeThread t.thread (withFiles c.machine h.files) c.conversation.quiet
    rw [failed] at resumed
    have begun : m.Inherits (toShow m f.toValue) := (Inherits.rested m).trans (.of_core rfl)
    exact (filed.trans resumed).trans begun
  | @closes m m' m'' v v' v'' f shows failed begun ih =>
    have runs := bracketed_preserves.runWithin levels
    have ran := runs m v
    rw [show runWithin levels m v = _ from failed] at ran
    have left : m'.Inherits ((m'.guarded.closeCells 0).showing f.isPlaced) := by
      have guarded : m'.Inherits m'.guarded := (Inherits.rested m').trans (.of_core rfl)
      exact (guarded.trans (.of_change (.closeCells 0))).trans (.disclosing _ _)
    have closing := inherits_of_consults (fun _ agree => agree.closeAll runs (.refl _) _ _ _) begun
    exact (ih.trans ran.toInherits).trans (left.trans closing)

/-- A machine occurs in the life of a context, in the middle of a step. -/
def Meets (c : Context) (m : Machine) : Prop :=
  ∃ requests q h c₁ t m₀ v₀ v, (c.tally .zero requests).1.Steps q c₁ t ∧ c₁.Begins t h m₀ v₀ ∧
    Machine.Occurs levels m₀ v₀ m v

theorem inherits_of_steps {q : Request} {c₁ : Context} {t : Task} (steps : c.Steps q c₁ t) :
    c.machine.Inherits c₁.machine := by
  cases steps with
  | started idle launched => exact inherits_launch launched
  | goesOn task waits => exact .refl _

/-- All machines in the life of a context inherit from the first one. -/
theorem inherits_of_meets {m : Machine} (meets : c.Meets m) : c.machine.Inherits m := by
  obtain ⟨requests, q, h, c₁, t, m₀, v₀, v, steps, begins, occurs⟩ := meets
  have before := (inherits_tally c .zero requests).trans (inherits_of_steps steps)
  exact (before.trans (inherits_of_begins begins)).trans occurs.inherits

end Context

/-- If there is no bound for the memory, a new context can run whatever code there is. -/
theorem Context.exists_meets {config : Config} {s : SessionId} {e : EntityId} {h : Host} {c : Context}
    (made : (create config s e h).value = .ok c) (unlimited : config.memoryLimit = none)
    (chunk : Chunk) : ∃ m, c.Meets m := by
  have counted := counted_create made
  have idle : c.state.filter (fun s => !s.isTerminal) = none := by
    rw [Context.state, counted.started.2 rfl]
    rfl
  have limit : (c.machine.loadChunk chunk).2.heap.limit = 0 := by
    rw [loadChunk, install, Store.makeFunction_eq, machine_create made, unlimited]
    rfl
  have room : HasRoom c.machine chunk := hasRoom_of_unlimited limit
  have settled : (c.machine.loadChunk chunk).2.Settled :=
    counted.settled.of_seat (seat_loadChunk c.machine chunk)
  let begun := (c.machine.loadChunk chunk).2.newThread (c.machine.loadChunk chunk).1
  have launched : launch ⟨chunk.archive⟩ c.machine = (.ok begun.1, begun.2) :=
    launch_eq_ok.2 ⟨chunk, Archive.read_archive chunk, room.1, room.2, rfl⟩
  have shallow : 0 < depthBound := by decide
  let c₁ : Context := { c with machine := begun.2 }
  obtain ⟨inner, entered⟩ := entered_of_suspended (m := c₁.ready h) (newThread_open settled _).2.1
    shallow #[]
  exact ⟨inner, [], _, h, c₁, _, inner, _, _, .started idle launched, .turn entered, .here _ _ _⟩

/-! ## Calls of the loaders -/

/-- What calls of the loaders come to, whatever their arguments are and wherever they
are made. -/
structure Lua.Machine.TakesTexts (m : Machine) : Prop where
  /-- What `load` makes is a function of a text: of this one, if the chunk is a string. -/
  load : ∀ s run v, ComesLoaded run (m.callAt 1 s) v s fun bytes =>
    ∀ text, Args.textOf? ((m.argsAt s).get 1) = some text → bytes = text
  /-- It refuses an archive that is given as a string. -/
  loadArchive : ∀ s run v text,
    ((m.argsAt s).isAbsent 2 = true ∨ (Args.textOf? ((m.argsAt s).get 2)).isSome = true) →
    Args.textOf? ((m.argsAt s).get 1) = some text → Archive.isArchive text = true →
    ComesRefused run (m.callAt 1 s) v s
  /-- It refuses an archive of which a function gives the first piece, when it has asked
  for that. -/
  loadPieces : ∀ s run v,
    ((m.argsAt s).isAbsent 2 = true ∨ (Args.textOf? ((m.argsAt s).get 2)).isSome = true) →
    ((m.argsAt s).get 1).isFunction = true →
    Comes run (m.callAt 1 s) v fun m' v' => v' = v ∧ ∃ slot,
      m'.control = .call (.builtin .load) (handed 2 (m.argsAt s).values) slot (.slots slot none)
        false ∧
      ∀ (vs : Array Value) (m'' : Machine) (w : Conversation) (text : Bytes),
        attemptCall run (slot + 1) ((m.argsAt s).get 1) #[] { m' with control := .run } v =
          ((.ok vs, m''), w) →
        Args.textOf? (vs.getD 0 .nil) = some text → Archive.isArchive text = true →
        Comes run m' v fun y w' => w' = w ∧ y.EndedAt s #[.nil, .str Loading.refusal]
  /-- What `loadfile` makes is a function of a text. -/
  loadFile : ∀ s run v, ComesLoaded run (m.callAt 2 s) v s fun _ => True
  /-- It refuses a file that holds an archive. -/
  loadFileArchive : ∀ s run v, m.heap.HoldsArchive ((m.argsAt s).get 1) →
    ComesRefused run (m.callAt 2 s) v s
  /-- What `dofile` runs is a function of a text, and it fails if the file holds an archive,
  if it finds the `assert` of the library in its environment. -/
  runFile : ∀ s run v (c : Closure) (g : Nat), m.heap.closures[3]? = some c →
    m.heap.cells[c.cells.getD 0 0]? = some (.closed (.table g)) →
    (m.heap.tableAt g).get (.ofText "assert") = .builtin .assert →
    ComesRun run (m.callAt 3 s) v s (m.heap.HoldsArchive ((m.argsAt s).get 1))

namespace Lua.Machine

/-- A loader that is in place. -/
theorem HasGuard.isLoader {m : Machine} {id k : Nat} {b : Builtin}
    (h : m.HasGuard id (·.HandsOn k) 0 (.builtin b)) : ∃ c, m.IsLoader id k b c := by
  obtain ⟨c, found, hands, sealed⟩ := h
  exact ⟨c, found, hands, sealed.value⟩

theorem Guarded.takesTexts {m : Machine} (h : m.Guarded) : m.TakesTexts := by
  obtain ⟨c, load⟩ := h.load.isLoader
  obtain ⟨d, loadFile⟩ := h.loadFile.isLoader
  refine ⟨comesLoaded_load load, ?_, ?_, comesLoaded_loadFile loadFile, ?_, ?_⟩
  · exact fun s run v text named given archive => comesRefused_load load s run v named given archive
  · exact fun s run v named reader => comes_load_piece load s run v named reader
  · exact fun s run v archive => comesRefused_loadFile loadFile s run v archive
  · intro s run v e g found env asserts
    obtain ⟨e', found', runs, sealed⟩ := h.runFile
    obtain rfl : e = e' := Option.some.inj (found.symm.trans found')
    exact comes_runFile ⟨found, runs, sealed.value, loadFile, g, env, asserts⟩ s run v

end Lua.Machine

/-- The loaders of a context take texts only.

They are the globals `load`, `loadfile` and `dofile` of a new context.  Whatever the
context is asked for then and whatever its scripts do, wherever they call one of these
functions and with whatever arguments, it makes or runs a function of a text, or none;
and it refuses an archive, be it given as a string, in pieces or in a file. -/
theorem loaders_take_texts {config : Config} {s : SessionId} {e : EntityId} {h : Host} {c : Context}
    (made : (Context.create config s e h).value = .ok c) :
    c.machine.NamesLoaders ∧ ∀ m, c.Meets m → m.TakesTexts := by
  obtain ⟨guarded, names⟩ := Context.guarded_create made
  exact ⟨names, fun m meets => (guarded.inherit (Context.inherits_of_meets meets)).takesTexts⟩

/-- A context that runs a function that returns at once. -/
theorem loaders_take_texts_unlimited : ∃ c m,
    (Context.create .default ⟨1⟩ ⟨2⟩ (.start .empty)).value = .ok c ∧ c.Meets m ∧
      c.machine.NamesLoaders ∧ m.TakesTexts := by
  have unlimited : Config.default.memoryLimit = none := rfl
  obtain ⟨c, made⟩ := Context.create_of_unlimited unlimited ⟨1⟩ ⟨2⟩ (.start .empty)
  obtain ⟨m, meets⟩ := Context.exists_meets made unlimited
    ⟨0, false, 2, #[.return 0 (some 0) false], #[], #[], ⟨none, 0, #[], #[], #[]⟩, []⟩
  obtain ⟨names, texts⟩ := loaders_take_texts made
  exact ⟨c, m, made, meets, names, texts m meets⟩

end NpcDialog
