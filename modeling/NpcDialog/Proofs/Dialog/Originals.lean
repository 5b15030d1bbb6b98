import NpcDialog.Proofs.Dialog.TextLoaders

/-!
# The loaders of a context act as the library's own ones

A loader of a context is there to set the mode, and for nothing else.  The two that load
come to one call of the function of the library that they stand for, on the same heap, with
the arguments that they were given and the mode of texts among them; and what comes of that
call comes of theirs.  So it does, as far as the file is concerned, of the one that runs
files, which then calls what was loaded in its own place.  But before that it hands what
was loaded on to `assert`, and it looks that up when it is called: if a script has put
another function there, the loader runs whatever that gives it.

* `Machine.Awaits` — what comes of a call of the library comes of another one.
* `Machine.AwaitsFile` — so does what comes of a file.
* `Machine.ActsAsOriginals` — all calls of the loaders come to that.
* `loaders_act_as_originals` — the result.
-/

namespace NpcDialog

open Lua Lua.Machine

namespace Lua.Machine

/-- This comes of the call of a library function in the slot `slot` of a machine. -/
def Performs (run : Runner) (m : Machine) (v : Conversation) (b : Builtin) (args : Array Value)
    (slot : Nat) (o : Outcome) (m' : Machine) (w : Conversation) : Prop :=
  perform run (.builtin b) slot (b.routine none args) { m with control := .run } v = ((o, m'), w)

/-- A call from `s` has come to a call of a library function, and what comes of the latter
comes of it: a fault, or results. -/
structure Awaits (run : Runner) (m : Machine) (v : Conversation) (s : Site) (b : Builtin)
    (args : Array Value) (slot : Nat) : Prop where
  control : m.control = .call (.builtin b) args slot (.slots slot none) false
  exits : ∀ o m' w, Performs run m v b args slot o m' w →
    (∃ f, o = .raised f) ∨ ∃ vs, o = .ended (.results vs)
  fails : ∀ f m' w, Performs run m v b args slot (.raised f) m' w →
    m.step run v = (.next (m'.raise f), w)
  ends : ∀ vs m' w, Performs run m v b args slot (.ended (.results vs)) m' w →
    Comes run m v fun y u => u = w ∧ y.EndedAt s vs ∧ m'.SameThings y

/-- A call from `s` has come to a call of the library function that loads a file, and what
comes of the latter comes of it: a fault, also with the message about a file that could not
be loaded, or a call of the function that was made, in its place and with no arguments. -/
structure AwaitsFile (run : Runner) (m : Machine) (v : Conversation) (s : Site) (file : Value)
    (slot : Nat) : Prop where
  control : m.control = .call (.builtin .loadfile) (handed 1 #[file]) slot (.slots slot none) false
  exits : ∀ o m' w, Performs run m v .loadfile (handed 1 #[file]) slot o m' w →
    (∃ f, o = .raised f) ∨ (∃ e, o = .ended (.results #[.nil, e])) ∨
      ∃ id, o = .ended (.results #[.closure id])
  fails : ∀ f m' w, Performs run m v .loadfile (handed 1 #[file]) slot (.raised f) m' w →
    m.step run v = (.next (m'.raise f), w)
  refused : ∀ e m' w,
    Performs run m v .loadfile (handed 1 #[file]) slot (.ended (.results #[.nil, e])) m' w →
      Comes run m v fun y u => u = w ∧ ∃ f, y.control = .raise f ∧
        ∀ message, e = .str message → ∃ place, f = .located place message
  runs : ∀ id m' w,
    Performs run m v .loadfile (handed 1 #[file]) slot (.ended (.results #[.closure id])) m' w →
      Comes run m v fun y u => u = w ∧ ∃ (x : Machine) (start : Nat),
        y = x.callAt id ⟨start, 0, s.deliver, s.frames, s.depth⟩ ∧ m'.SameThings x

/-- What calls of the loaders come to, whatever their arguments are. -/
structure ActsAsOriginals (m : Machine) : Prop where
  load : ∀ s run v, Comes run (m.callAt 1 s) v fun y w => w = v ∧ m.SameThings y ∧
    ∃ slot, Awaits run y v s .load (handed 2 (m.argsAt s).values) slot
  loadFile : ∀ s run v, Comes run (m.callAt 2 s) v fun y w => w = v ∧ m.SameThings y ∧
    ∃ slot, Awaits run y v s .loadfile (handed 1 (m.argsAt s).values) slot
  /-- It finds the `assert` of the library in its environment. -/
  runFile : ∀ s run v (c : Closure) (g : Nat), m.heap.closures[3]? = some c →
    m.heap.cells[c.cells.getD 0 0]? = some (.closed (.table g)) →
    (m.heap.tableAt g).get (.ofText "assert") = .builtin .assert →
    Comes run (m.callAt 3 s) v fun y w => w = v ∧ m.SameThings y ∧
      ∃ slot, AwaitsFile run y v s ((m.argsAt s).get 1) slot

variable {m m₀ : Machine} {a : Activation} {k : Nat} {b : Builtin} {args : Array Value}
  {run : Runner} {v : Conversation}

/-! ## The functions that load -/

/-- What loads texts of some kind, or fails, ends in one of these two ways, and the call
from which it was called stays. -/
theorem Performs.of_loads {reads : Bool} {kind : Bytes → Prop} {slot : Nat} {o : Outcome}
    {m' : Machine} {w : Conversation} (h : Performs run m v b args slot o m' w)
    (loads : (b.routine none args).LoadsText reads kind) : o.OfLoading kind m' ∧ m.Stays m' := by
  obtain ⟨loaded, stays⟩ := loads.perform run (.builtin b) slot { m with control := .run } v
  rw [show perform run _ _ _ _ v = _ from h] at loaded stays
  exact ⟨loaded, stays.pc, stays.frames⟩

theorem Calling.awaits {s : Site} (h : m₀.Calling m a s.frames k b args) {reads : Bool}
    {kind : Bytes → Prop} (loads : (b.routine none (handed k args)).LoadsText reads kind)
    (deliver : a.deliver = s.deliver) (depth : a.depth = s.depth) :
    Awaits run m v s b (handed k args) (a.base + (k + 1)) where
  control := h.control
  exits o m' w performed := by
    cases (performed.of_loads loads).1 with
    | fails f => exact .inl ⟨f, rfl⟩
    | ends loaded => exact .inr ⟨_, rfl⟩
  fails f m' w performed := step_builtin h.control performed
  ends vs m' w performed := by
    refine (h.leaves performed (performed.of_loads loads).2).imp ?_
    rintro y u ⟨rfl, x, pc, leaving, ⟨used, same⟩, -, -, rfl⟩
    refine ⟨rfl, ⟨x, _, _, leaving, deliver, depth, rfl⟩, used, ?_⟩
    rw [heap_leave, same]

theorem comes_awaits {id : Nat} {c : Closure} (h : m.IsLoader id k b c) (s : Site) {reads : Bool}
    {kind : Bytes → Prop} (loads : (b.routine none (handed k (m.argsAt s).values)).LoadsText reads kind)
    (run : Runner) (v : Conversation) :
    Comes run (m.callAt id s) v fun y w => w = v ∧ m.SameThings y ∧
      ∃ slot, Awaits run y v s b (handed k (m.argsAt s).values) slot := by
  refine (comes_calling h s run v).imp ?_
  rintro y w ⟨rfl, a, calling, -, deliver, depth⟩
  exact ⟨rfl, calling.things, _, calling.awaits loads deliver depth⟩

/-! ## The function that runs files -/

theorem Fetching.awaitsFile {a b : Activation} {s : Site} {file : Value}
    (h : m₀.Fetching m a b s.frames file) (deliver : a.deliver = s.deliver)
    (depth : a.depth = s.depth) : AwaitsFile run m v s file (b.base + (1 + 1)) where
  control := h.calling.control
  exits o m' w performed := by
    cases (performed.of_loads (Loading.loads_loadFile (get_handed_mode 1 _))).1 with
    | fails f => exact .inl ⟨f, rfl⟩
    | ends loaded =>
      cases loaded with
      | refused e => exact .inr (.inl ⟨e, rfl⟩)
      | @made g _ _ _ _ found =>
        cases g with
        | closure id => exact .inr (.inr ⟨id, rfl⟩)
        | _ => cases found
  fails f m' w performed := step_builtin h.calling.control performed
  refused e m' w performed := by
    refine (h.asserting performed).bind ?_
    rintro y w ⟨rfl, asserting, -⟩
    obtain ⟨z, f, step, raises, message⟩ := asserting.fails run w
    exact .step step (.here ⟨rfl, f, raises, message⟩)
  runs id m' w performed := by
    refine (h.asserting performed).bind ?_
    rintro y w ⟨rfl, asserting, used, same⟩
    obtain ⟨x, leads, heap⟩ := asserting.runs run w
    refine .after leads (.here ⟨rfl, x, a.start, ?_, used, heap.trans same⟩)
    rw [callAt, ← deliver, ← depth]

/-! ## Loaders in place -/

theorem Guarded.actsAsOriginals (h : m.Guarded) {x : Machine} (same : x.heap = m.heap) :
    x.ActsAsOriginals := by
  obtain ⟨c, load⟩ := h.load.isLoader
  obtain ⟨d, loadFile⟩ := h.loadFile.isLoader
  have load : x.IsLoader 1 2 .load c := ⟨same ▸ load.found, load.hands, same ▸ load.original⟩
  have loadFile : x.IsLoader 2 1 .loadfile d :=
    ⟨same ▸ loadFile.found, loadFile.hands, same ▸ loadFile.original⟩
  refine ⟨fun s run v => ?_, fun s run v => ?_, fun s run v e g found env asserts => ?_⟩
  · exact comes_awaits load s (Loading.loads_load (get_handed_mode 2 _)) run v
  · exact comes_awaits loadFile s (Loading.loads_loadFile (get_handed_mode 1 _)) run v
  · obtain ⟨e', found', runs, sealed⟩ := h.runFile
    rw [← same] at found'
    obtain rfl : e = e' := Option.some.inj (found.symm.trans found')
    have captured : x.heap.cells[e.cells.getD 1 0]? = some (.closed (.closure 2)) := same ▸ sealed.value
    refine (comes_fetching ⟨found, runs, captured, loadFile, g, env, asserts⟩ s run v).imp ?_
    rintro y w ⟨rfl, m', a, b, things, fetching, deliver, depth⟩
    exact ⟨rfl, things.trans fetching.calling.things, _, fetching.awaitsFile deliver depth⟩

end Lua.Machine

/-- An environment that is left out is still left out when the mode is set, and one that
is given is still given, be it nothing. -/
theorem environment_handed (k : Nat) (args : Array Value) :
    Loading.environment ⟨handed k args⟩ (k + 2) = Loading.environment ⟨args⟩ (k + 2) := by
  have size : (handed k args).size = max args.size (k + 1) := by simp [handed]
  have missing : (⟨handed k args⟩ : Args).isMissing (k + 2) = (⟨args⟩ : Args).isMissing (k + 2) := by
    simp only [Args.isMissing, size]
    exact decide_eq_decide.2 (by omega)
  rw [Loading.environment, Loading.environment, missing]
  split
  · rfl
  · next given =>
    have given : k + 2 ≤ args.size := by simpa [Args.isMissing] using given
    have same : (handed k args).getD (k + 1) .nil = args.getD (k + 1) .nil := by
      rw [getD_handed (by omega), handedAt, if_neg (by omega)]
    exact congrArg some same

/-- The loaders of a context act as the library's own ones do in the mode of texts.

They are the globals `load`, `loadfile` and `dofile` of a new context.  Whatever the
context is asked for then and whatever its scripts do, wherever they call one of the first
two and with whatever arguments, it comes to a call of the library's own function with
these arguments, only with the mode of texts, on the same heap, and to what comes of that.
The third one comes to a call of the library's function that loads files, and runs what
that makes in its own place, as long as it finds the library's `assert`. -/
theorem loaders_act_as_originals {config : Config} {s : SessionId} {e : EntityId} {h : Host}
    {c : Context} (made : (Context.create config s e h).value = .ok c) :
    c.machine.NamesLoaders ∧
      (∀ k args, Loading.environment ⟨handed k args⟩ (k + 2) = Loading.environment ⟨args⟩ (k + 2)) ∧
      ∀ m, c.Meets m → ∀ x : Machine, x.heap = m.heap → x.ActsAsOriginals := by
  obtain ⟨guarded, names⟩ := Context.guarded_create made
  refine ⟨names, environment_handed, fun m meets x same => ?_⟩
  exact (guarded.inherit (Context.inherits_of_meets meets)).actsAsOriginals same

/-- A context that runs a function that returns at once. -/
theorem loaders_act_as_originals_unlimited : ∃ c m,
    (Context.create .default ⟨1⟩ ⟨2⟩ (.start .empty)).value = .ok c ∧ c.Meets m ∧
      c.machine.NamesLoaders ∧ m.ActsAsOriginals := by
  have unlimited : Config.default.memoryLimit = none := rfl
  obtain ⟨c, made⟩ := Context.create_of_unlimited unlimited ⟨1⟩ ⟨2⟩ (.start .empty)
  obtain ⟨m, meets⟩ := Context.exists_meets made unlimited
    ⟨0, false, 2, #[.return 0 (some 0) false], #[], #[], ⟨none, 0, #[], #[], #[]⟩, []⟩
  obtain ⟨names, -, acts⟩ := loaders_act_as_originals made
  exact ⟨c, m, made, meets, names, acts m meets m rfl⟩

end NpcDialog
