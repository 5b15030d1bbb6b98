import NpcDialog.Proofs.Dialog.Loaders

/-!
# Running a file

The third of a context's loaders runs a file: it calls the one that loads files, hands
what comes of that on to `assert`, as it finds it in its environment, and ends with a
call of the function.  As long as that is the `assert` of the library, it runs a
function of a text, or fails; and it fails with a message about the mode if the file
holds an archive.

* `FunctionCode.RunsFile` — the code of the loader.
* `Machine.comes_runFile` — what its calls come to.
-/

namespace NpcDialog

open Lua
open Bytes (ofText)

/-- The instructions of the loader that runs a file. -/
def runningCode : Array Instr :=
  #[.getCapturedField 1 0 0, .getCaptured 2 1, .move 3 0, .call 2 (some 1) none,
    .call 1 none (some 1), .move 2 1, .tailCall 2 (some 0) false, .return 2 none false,
    .return 2 (some 0) false]

/-- The function is this loader. -/
structure Lua.FunctionCode.RunsFile (f : FunctionCode) : Prop where
  params : f.params = 1
  vararg : f.isVararg = false
  registers : f.registers = 4
  consts : f.consts = #[.str (ofText "assert")]
  code : f.code = runningCode

instance (f : FunctionCode) : Decidable f.RunsFile :=
  decidable_of_iff (f.params = 1 ∧ f.isVararg = false ∧ f.registers = 4 ∧
      f.consts = #[.str (ofText "assert")] ∧ f.code = runningCode)
    ⟨fun ⟨params, vararg, registers, consts, code⟩ => ⟨params, vararg, registers, consts, code⟩,
      fun ⟨params, vararg, registers, consts, code⟩ => ⟨params, vararg, registers, consts, code⟩⟩

namespace Lua.Machine

/-- A function of the machine is a loader that runs files, and finds the `assert` of the
library in its environment. -/
structure IsFileRunner (m : Machine) (id : Nat) (c : Closure) (inner : Nat) (loader : Closure) :
    Prop where
  found : m.heap.closures[id]? = some c
  runs : c.code.RunsFile
  captured : m.heap.cells[c.cells.getD 1 0]? = some (.closed (.closure inner))
  loader : m.IsLoader inner 1 .loadfile loader
  asserts : ∃ g, m.heap.cells[c.cells.getD 0 0]? = some (.closed (.table g)) ∧
    (m.heap.tableAt g).get (.ofText "assert") = .builtin .assert

theorem IsFileRunner.of_sameThings {m m' : Machine} {id inner : Nat} {c loader : Closure}
    (h : m.IsFileRunner id c inner loader) (same : m.SameThings m') :
    m'.IsFileRunner id c inner loader := by
  obtain ⟨used, same⟩ := same
  obtain ⟨found, runs, captured, ⟨there, hands, original⟩, asserts⟩ := h
  refine ⟨?_, runs, ?_, ⟨?_, hands, ?_⟩, ?_⟩ <;> rw [same] <;> assumption

/-- The loader is innermost, in the call `a`, with memory enough to go on. -/
structure Running (m : Machine) (a : Activation) (rest : List Frame) : Prop where
  frames : m.frames = .lua a :: rest
  control : m.control = .run
  memory : m.HasMemory
  room : a.base + 4 ≤ m.stack.size
  body : a.body.RunsFile

namespace Running

variable {m : Machine} {a : Activation} {rest : List Frame} (h : m.Running a rest)
include h

theorem setReg (pc r : Nat) (x : Value) : ({ m with pc }.setReg a r x).Running a rest :=
  { h with
    room := by
      show _ ≤ (m.setSlot _ _).stack.size
      rw [size_setSlot]
      exact h.room }

theorem slot_setReg {r : Nat} (there : r < 4) (pc : Nat) (x : Value) (i : Nat) :
    ({ m with pc }.setReg a r x).slot i = if i = a.base + r then x else m.slot i := by
  have room := h.room
  split
  · next same =>
    subst same
    exact slot_setSlot { m with pc } (show a.base + r < m.stack.size by omega) x
  · next other => exact slot_setSlot_ne m (Ne.symm other) x

theorem step_eq (run : Runner) (v : Conversation) {pc : Nat} (at_ : m.pc = pc) {i : Instr}
    (code : runningCode[pc]? = some i) :
    m.step run v = (.next ({ m with pc := pc + 1 }.execute a i), v) := by
  subst at_
  exact step_execute h.frames h.control h.memory (by rw [h.body.code, code]) run v

end Running

/-- The loader is about to call the one that loads files, and has `assert` ready. -/
structure Looking (m₀ m : Machine) (a : Activation) (rest : List Frame) (inner : Nat) (file : Value) :
    Prop extends Running m a rest where
  pc : m.pc = 3
  things : m₀.SameThings m
  asserts : m.slot (a.base + 1) = .builtin .assert
  loader : m.slot (a.base + 2) = .closure inner
  file : m.slot (a.base + 3) = file

/-- The loader calls `assert` with what came of loading. -/
structure Asserting (m : Machine) (a : Activation) (rest : List Frame) (vs : Array Value) : Prop where
  frames : m.frames = .lua a :: rest
  memory : m.HasMemory
  room : a.base + 4 ≤ m.stack.size
  body : a.body.RunsFile
  pc : m.pc = 5
  control : m.control = .call (.builtin .assert) vs (a.base + 1) (.slots (a.base + 1) (some 1)) false

section

variable {m₀ m : Machine} {a : Activation} {rest : List Frame}

/-- A field of a table that has a value. -/
theorem fetch_value {g : Nat} {key v : Value} (found : (m.heap.tableAt g).get key = v)
    (there : v.isNil = false) (target : Nat) (origin : Origin) :
    m.fetch a target (.table g) key origin = m.setReg a target v := by
  have lookup : m.heap.lookup (.table g) key = .value v := by
    rw [Heap.lookup, show chainBound = 1999 + 1 from rfl, Heap.lookupFrom]
    simp only [found, there, Bool.not_false, if_true]
  unfold fetch
  rw [lookup]

/-- The three values that the loader needs are in their registers after as many steps. -/
theorem Running.looks (h : m.Running a rest) {id inner : Nat} {c loader : Closure}
    (isRunner : m.IsFileRunner id c inner loader) (cells : a.cells = c.cells) (pc : m.pc = 0)
    (run : Runner) (v : Conversation) :
    ∃ m', Leads run 3 m v m' v ∧ m.Looking m' a rest inner (m.slot a.base) := by
  obtain ⟨g, env, asserts⟩ := isRunner.asserts
  let m₁ := { m with pc := 1 }.setReg a 1 (.builtin .assert)
  let m₂ := { m₁ with pc := 2 }.setReg a 2 (.closure inner)
  let m₃ := { m₂ with pc := 3 }.setReg a 3 (m.slot a.base)
  have h₁ : m₁.Running a rest := h.setReg 1 1 _
  have h₂ : m₂.Running a rest := h₁.setReg 2 2 _
  have first : m.step run v = (.next m₁, v) := by
    have step := h.step_eq run v pc (show runningCode[0]? = some (.getCapturedField 1 0 0) from rfl)
    have name : const a 0 = .ofText "assert" := by
      rw [const, h.body.consts]
      rfl
    have table : ({ m with pc := 1 }).readCell (a.cells.getD 0 0) = .table g := by
      have there : ({ m with pc := 1 }).heap.cells[a.cells.getD 0 0]? = _ := cells ▸ env
      rw [readCell, there]
    rw [step]
    show (Step.next (fetch _ a 1 (readCell _ _) (const a 0) _), v) = _
    rw [table, name, fetch_value (m := { m with pc := 1 }) asserts rfl]
  have second : m₁.step run v = (.next m₂, v) := by
    have step := h₁.step_eq run v (show m₁.pc = 1 from rfl) (show runningCode[1]? = some (.getCaptured 2 1) from rfl)
    have value : ({ m₁ with pc := 2 }).readCell (a.cells.getD 1 0) = .closure inner := by
      have there : ({ m₁ with pc := 2 }).heap.cells[a.cells.getD 1 0]? = _ := cells ▸ isRunner.captured
      rw [readCell, there]
    rw [step]
    show (Step.next (Machine.setReg _ a 2 (readCell _ _)), v) = _
    rw [value]
  have slots₁ (i : Nat) := h.slot_setReg (show 1 < 4 by omega) 1 (.builtin .assert) i
  have slots₂ (i : Nat) := h₁.slot_setReg (show 2 < 4 by omega) 2 (.closure inner) i
  have slots₃ (i : Nat) := h₂.slot_setReg (show 3 < 4 by omega) 3 (m.slot a.base) i
  have third : m₂.step run v = (.next m₃, v) := by
    have step := h₂.step_eq run v (show m₂.pc = 2 from rfl) (show runningCode[2]? = some (.move 3 0) from rfl)
    have value : ({ m₂ with pc := 3 }).reg a 0 = m.slot a.base := by
      refine (slots₂ _).trans ((if_neg (by omega)).trans ?_)
      exact (slots₁ _).trans (if_neg (by omega))
    rw [step]
    show (Step.next (Machine.setReg _ a 3 (reg _ a 0)), v) = _
    rw [value]
  refine ⟨m₃, .step first (.step second (.one third)), h₂.setReg 3 3 _, rfl, ⟨_, rfl⟩, ?_, ?_, ?_⟩
  · refine (slots₃ _).trans ((if_neg (by omega)).trans ?_)
    exact (slots₂ _).trans ((if_neg (by omega)).trans ((slots₁ _).trans (if_pos rfl)))
  · exact (slots₃ _).trans ((if_neg (by omega)).trans ((slots₂ _).trans (if_pos rfl)))
  · exact (slots₃ _).trans (if_pos rfl)

/-- The loader calls the one that loads files. -/
theorem Looking.loads {inner : Nat} {file : Value} (h : m₀.Looking m a rest inner file)
    (run : Runner) (v : Conversation) :
    ∃ m' : Machine, m.step run v = (.next (m'.enter inner (a.base + 2) 1 (.slots (a.base + 2) none)
      (.lua { a with pc := 4 } :: rest) m'.depth), v) ∧ m₀.SameThings m' ∧ m'.stack = m.stack := by
  have step := h.step_eq run v h.pc (show runningCode[3]? = some (.call 2 (some 1) none) from rfl)
  refine ⟨{ m with pc := 4 }.settle a, ?_, h.things, rfl⟩
  have callee : ({ m with pc := 4 }.settle a).slot (a.base + 2) = .closure inner := h.loader
  have held : ({ m with pc := 4 }.settle a).heldFrames = .lua { a with pc := 4 } :: rest := by
    simp only [heldFrames, settle, h.frames]
  rw [step]
  show (Step.next (callSlots _ (a.base + 2) 1 _), v) = _
  rw [callSlots, callee]
  simp only [held]

/-- The loader has what came of loading, and calls `assert` with it. -/
theorem BackWith.asserts {x : Machine} {vs : Array Value}
    (h : x.BackWith m a rest (a.base + 2) vs) (pc : a.pc = 4) (body : a.body.RunsFile)
    (room : a.base + 4 ≤ m.stack.size) (found : m.slot (a.base + 1) = .builtin .assert)
    (run : Runner) (v : Conversation) :
    ∃ m', m.step run v = (.next m', v) ∧ m'.Asserting a rest vs ∧ m'.heap = m.heap := by
  have running : m.Running a rest := ⟨h.frames, h.control, h.memory, room, body⟩
  have step := running.step_eq run v (h.pc.trans pc)
    (show runningCode[4]? = some (.call 1 none (some 1)) from rfl)
  have callee : ({ m with pc := 5 }.settle a).slot (a.base + 1) = .builtin .assert := found
  have count : m.top - (a.base + 1 + 1) = vs.size := by
    rw [h.top]
    omega
  have values : ({ m with pc := 5 }.settle a).valuesFrom (a.base + 1 + 1) vs.size = vs :=
    valuesFrom_eq _ h.values
  refine ⟨{ { m with pc := 5 }.settle a with
    control := .call (.builtin .assert) vs (a.base + 1) (.slots (a.base + 1) (some 1)) false }, ?_,
    ⟨h.frames, h.memory, room, body, rfl, rfl⟩, rfl⟩
  rw [step]
  show (Step.next (callSlots ({ m with pc := 5 }.settle a) (a.base + 1)
    (m.top - (a.base + 1 + 1)) _), v) = _
  rw [callSlots, callee, count]
  simp only [values]

end

/-- Without a value `assert` fails, with the message that it was given. -/
theorem assert_refused (e : Value) : ∃ f, Builtin.assert.routine none #[.nil, e] = .fail f ∧
    ∀ s, e = .str s → f = .message 1 s := by
  cases e with
  | str s => exact ⟨.message 1 s, rfl, fun _ same => by cases same; rfl⟩
  | _ => exact ⟨_, rfl, nofun⟩

/-- Nothing was loaded, and the loader fails. -/
theorem Asserting.fails {m : Machine} {a : Activation} {rest : List Frame} {e : Value}
    (h : m.Asserting a rest #[.nil, e]) (run : Runner) (v : Conversation) :
    ∃ m' f, m.step run v = (.next m', v) ∧ m'.control = .raise f ∧
      ∀ s, e = .str s → ∃ place, f = .located place s := by
  obtain ⟨f, routine, message⟩ := assert_refused e
  have performed : perform run (.builtin .assert) (a.base + 1)
      (Builtin.assert.routine none #[.nil, e]) { m with control := .run } v =
      ((.raised ({ m with control := .run }.placed (.builtin .assert) f), { m with control := .run }),
        v) := by
    rw [routine]
    rfl
  refine ⟨_, _, step_builtin h.control performed, rfl, fun s same => ?_⟩
  rw [message s same]
  exact ⟨_, rfl⟩

/-- A function was loaded, and the loader ends with a call of it. -/
theorem Asserting.runs {m : Machine} {a : Activation} {rest : List Frame} {id : Nat}
    (h : m.Asserting a rest #[.closure id]) (run : Runner) (v : Conversation) :
    ∃ m' : Machine,
      Leads run 4 m v (m'.enter id a.start 0 a.deliver rest a.depth) v ∧ m'.heap = m.heap := by
  have room := h.room
  have performed : perform run (.builtin .assert) (a.base + 1)
      (Builtin.assert.routine none #[.closure id]) { m with control := .run } v =
      ((.ended (.results #[.closure id]), { m with control := .run }), v) := rfl
  let m₀ : Machine := { m with control := .give #[.closure id] (.slots (a.base + 1) (some 1)) }
  let m₁ : Machine := { m with control := .run }.setSlot (a.base + 1) (.closure id)
  let m₂ := { m₁ with pc := 6 }.setReg a 2 (.closure id)
  have first : m.step run v = (.next m₀, v) := step_builtin h.control performed
  have second : m₀.step run v = (.next m₁, v) := by
    show (m₀.give #[.closure id] (.slots (a.base + 1) (some 1)), v) = _
    rw [give_one (m := m₀) (show a.base + 1 < m.stack.size by omega)]
  have running : m₁.Running a rest :=
    ⟨h.frames, rfl, h.memory, by rw [show m₁ = Machine.setSlot _ _ _ from rfl, size_setSlot]; exact room,
      h.body⟩
  have value : ({ m₁ with pc := 6 }).reg a 1 = .closure id :=
    slot_setSlot { m with control := .run } (show a.base + 1 < m.stack.size by omega) _
  have third : m₁.step run v = (.next m₂, v) := by
    rw [running.step_eq run v (show m₁.pc = 5 from h.pc)
      (show runningCode[5]? = some (.move 2 1) from rfl)]
    show (Step.next (Machine.setReg _ a 2 (Machine.reg _ a 1)), v) = _
    rw [value]
  have running₂ : m₂.Running a rest := running.setReg 6 2 _
  have callee : ({ m₂ with pc := 7 }).slot (a.base + 2) = .closure id :=
    (running.slot_setReg (by omega) 6 _ _).trans (if_pos rfl)
  have frames : ({ m₂ with pc := 7 }.copySlots (a.base + 2) a.start 1).frames.tail = rest := by
    rw [copySlots_eq]
    exact congrArg List.tail h.frames
  refine ⟨{ m₂ with pc := 7 }.copySlots (a.base + 2) a.start 1,
    .step first (.step second (.step third (.one ?_))), ?_⟩
  · rw [running₂.step_eq run v (show m₂.pc = 6 from rfl)
      (show runningCode[6]? = some (.tailCall 2 (some 0) false) from rfl)]
    simp only [execute, Bool.false_eq_true, if_false, Option.getD_some, callee]
    rw [frames]
  · rw [copySlots_eq]
    rfl

/-! ## What the loader comes to -/

/-- A call at some place comes to an end with a call of a function of a text, in its
place and with no arguments, or to a fault; and to a fault with a message about the
mode, if the file holds an archive. -/
def ComesRun (run : Runner) (e : Machine) (v : Conversation) (s : Site) (archive : Prop) : Prop :=
  Comes run e v fun y w => v.OnlyStreams w ∧
    ((∃ f, y.control = .raise f ∧ (archive → ∃ place, f = .located place Loading.refusal)) ∨
      ¬ archive ∧ ∃ (x : Machine) (made from_ : Nat) (code : FunctionCode) (bytes : Bytes),
        y = x.callAt made ⟨from_, 0, s.deliver, s.frames, s.depth⟩ ∧
          x.codeOf (.closure made) = some code ∧ code.IsOfText bytes)

/-- The one that loads files was called in the machine `m₀`, and calls the library's
function with the file in the call `b`; the loader waits for what comes of that in the
call `a`. -/
structure Fetching (m₀ m : Machine) (a b : Activation) (rest : List Frame) (file : Value) : Prop where
  calling : m₀.Calling m b (.lua { a with pc := 4 } :: rest) 1 .loadfile #[file]
  target : b.deliver = .slots (a.base + 2) none
  lower : a.base + 2 < b.base
  body : a.body.RunsFile
  asserts : m₀.slot (a.base + 1) = .builtin .assert

namespace Fetching

variable {m₀ m m' : Machine} {a b : Activation} {rest : List Frame} {file : Value}
  (h : m₀.Fetching m a b rest file)
include h

/-- Something has come of loading the file, and the loader calls `assert` with it. -/
theorem asserting {run : Runner} {v w : Conversation} {vs : Array Value}
    (performed : perform run (.builtin .loadfile) (b.base + (1 + 1))
      (Builtin.loadfile.routine none (handed 1 #[file])) { m with control := .run } v =
        ((.ended (.results vs), m'), w)) :
    Comes run m v fun y u => u = w ∧ y.Asserting { a with pc := 4 } rest vs ∧ m'.SameThings y := by
  have calling := h.calling
  have lower := h.lower
  have routine := Loading.loads_loadFile (get_handed_mode 1 #[file])
  obtain ⟨o, m₁, u, silent, -, frames, pc, stack⟩ := routine.perform_silent run
    (.builtin .loadfile) (b.base + (1 + 1)) { m with control := .run } v
  cases performed.symm.trans silent
  refine (calling.leaves performed (.of_eq pc frames)).bind ?_
  rintro y v ⟨rfl, x, pc, leaving, ⟨used, heap⟩, size, below, rfl⟩
  have back := leaving.backWith h.target (by omega : a.base + 2 ≤ b.base + (1 + 1))
  have room := calling.room
  rw [calling.body.registers] at room
  have kept (i : Nat) (lt : i < b.base) : x.slot i = m₀.slot i := by
    rw [below i (by omega), slot, stack]
    exact calling.below i lt
  have wide : a.base + 4 ≤ (x.leave { b with pc } (b.base + (1 + 1)) vs.size).stack.size := by
    rw [back.room]
    rw [stack] at size
    exact Nat.le_trans (by omega : a.base + 4 ≤ m.stack.size) size
  have found : (x.leave { b with pc } (b.base + (1 + 1)) vs.size).slot (a.base + 1) =
      .builtin .assert := by
    rw [back.below _ (by omega), kept _ (by omega)]
    exact h.asserts
  obtain ⟨z, asserts, asserting, same⟩ := back.asserts rfl h.body wide found run v
  exact .step asserts (.here ⟨rfl, asserting, used, by rw [same, heap_leave, heap]⟩)

end Fetching

section

variable {m : Machine} {id inner : Nat} {c loader : Closure}
  (h : m.IsFileRunner id c inner loader) (s : Site) (run : Runner) (v : Conversation)
include h

/-- The loader comes to a call of the library's function with the file. -/
theorem comes_fetching : Comes run (m.callAt id s) v fun y w => w = v ∧ ∃ m' a b,
    m.SameThings m' ∧ m'.Fetching y a b s.frames ((m.argsAt s).get 1) ∧ a.deliver = s.deliver ∧
      a.depth = s.depth := by
  have fits : c.code.params ≤ c.code.registers := by
    rw [h.runs.params, h.runs.registers]
    omega
  rcases m.entered_callAt h.found fits s with
    starved | ⟨a, entered, body, captured, delivers, deep⟩
  · exact .starved starved
  generalize m.callAt id s = e at entered
  refine (comes_counted entered.control run v).bind ?_
  rintro e' v ⟨rfl, ⟨used, drift, rfl⟩, memory⟩
  have things : m.SameThings { e with heap := { e.heap with used }, drift } :=
    entered.things.trans ⟨used, rfl⟩
  have runs : a.body.RunsFile := body ▸ h.runs
  have running : Running { e with heap := { e.heap with used }, drift } a s.frames :=
    ⟨entered.frames, entered.control, memory, by rw [← runs.registers]; exact entered.room, runs⟩
  have file : Machine.slot { e with heap := { e.heap with used }, drift } a.base = (m.argsAt s).get 1 :=
    entered.named 0 (by rw [runs.params]; omega)
  have pc : Machine.pc { e with heap := { e.heap with used }, drift } = 0 := entered.pc
  generalize { e with heap := { e.heap with used }, drift } = e at things running file pc
  obtain ⟨m₁, looks, looking⟩ := running.looks (h.of_sameThings things) captured pc run v
  obtain ⟨m₂, loads, same, stack⟩ := looking.loads run v
  have things₂ : m.SameThings m₂ := things.trans same
  let s₂ : Site := ⟨a.base + 2, 1, .slots (a.base + 2) none, .lua { a with pc := 4 } :: s.frames, m₂.depth⟩
  have given : (m₂.argsAt s₂).values = #[(m.argsAt s).get 1] := by
    show m₂.valuesFrom (a.base + 2 + 1) (Array.size #[(m.argsAt s).get 1]) = _
    refine valuesFrom_eq m₂ fun i lt => ?_
    obtain rfl : i = 0 := by simpa using lt
    rw [slot, stack, ← file]
    exact looking.file
  refine .after (looks.trans (.one loads)) ((comes_calling (h.of_sameThings things₂).loader s₂ run
    v).imp ?_)
  rintro m₃ v ⟨rfl, b, calling, lower, target, -⟩
  rw [given] at calling
  refine ⟨rfl, m₂, a, b, things₂, ⟨calling, target, lower, runs, ?_⟩, delivers, deep⟩
  rw [slot, stack]
  exact looking.asserts

/-- The loader comes to a call of `assert` with what came of loading the file. -/
theorem comes_asserting : Comes run (m.callAt id s) v fun y w => v.OnlyStreams w ∧
    ((∃ f, y.control = .raise f) ∧ ¬ m.heap.HoldsArchive ((m.argsAt s).get 1) ∨
      ∃ a vs, y.Asserting a s.frames vs ∧ a.deliver = s.deliver ∧ a.depth = s.depth ∧
        y.Loaded (fun _ => True) vs ∧
        (m.heap.HoldsArchive ((m.argsAt s).get 1) → vs = #[.nil, .str Loading.refusal])) := by
  refine (comes_fetching h s run v).bind ?_
  rintro m₃ v ⟨rfl, m₂, a, b, ⟨used, same⟩, fetching, delivers, deep⟩
  have archive (holds : m.heap.HoldsArchive ((m.argsAt s).get 1)) :=
    fetching.calling.performed_archive (by rw [same]; exact holds) run v
  have routine := Loading.loads_loadFile (get_handed_mode 1 #[(m.argsAt s).get 1])
  obtain ⟨o, m₄, w, performed, told, -⟩ := routine.perform_silent run
    (.builtin .loadfile) (b.base + (1 + 1)) { m₃ with control := .run } v
  have loaded := (routine.perform run (.builtin .loadfile) (b.base + (1 + 1))
    { m₃ with control := .run } v).1
  rw [performed] at loaded
  cases loaded with
  | fails f =>
    refine .step (step_builtin fetching.calling.control performed)
      (.here ⟨told, .inl ⟨⟨f, rfl⟩, fun holds => ?_⟩⟩)
    cases (archive holds).symm.trans performed
  | @ends vs loaded =>
    have refused (holds : m.heap.HoldsArchive ((m.argsAt s).get 1)) :
        vs = #[.nil, .str Loading.refusal] := by
      cases (archive holds).symm.trans performed
      rfl
    refine (fetching.asserting performed).imp ?_
    rintro z w ⟨rfl, asserting, used, same⟩
    refine ⟨told, .inr ⟨_, vs, asserting, delivers, deep, loaded.of_closures ?_, refused⟩⟩
    rw [same]

/-- What a call of the loader comes to. -/
theorem comes_runFile :
    ComesRun run (m.callAt id s) v s (m.heap.HoldsArchive ((m.argsAt s).get 1)) := by
  refine (comes_asserting h s run v).bind ?_
  rintro y w ⟨told, ⟨⟨f, fails⟩, plain⟩ | ⟨a, vs, asserting, deliver, depth, loaded, refused⟩⟩
  · exact .here ⟨told, .inl ⟨f, fails, fun holds => absurd holds plain⟩⟩
  · cases loaded with
    | refused e =>
      obtain ⟨z, f, step, fails, message⟩ := asserting.fails run w
      refine .step step (.here ⟨told, .inl ⟨f, fails, fun holds => message _ ?_⟩⟩)
      have same := congrArg (fun vs => vs.getD 1 .nil) (refused holds)
      exact same
    | @made g code bytes allowed text found =>
      cases g with
      | closure made =>
        obtain ⟨x, leads, heap⟩ := asserting.runs run w
        refine .after leads (.here ⟨told, .inr ⟨fun holds => ?_, x, made, a.start, code, bytes, ?_, ?_,
          text⟩⟩)
        · cases refused holds
        · rw [callAt, deliver, depth]
        · rw [← found, codeOf, codeOf, heap]
      | _ => cases found

end

end Lua.Machine

end NpcDialog
