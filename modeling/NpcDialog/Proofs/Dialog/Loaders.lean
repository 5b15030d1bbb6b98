import Mathlib
import NpcDialog.Proofs.Code.Loading
import NpcDialog.Proofs.Machine.Calls

/-!
# Loaders that hand on the mode of texts

Two of a context's loaders hand their arguments on to a function of the library that
they have captured, with the mode of texts in the place of whatever mode was asked for.
Their code is followed here instruction by instruction, whatever the arguments are and
however many: either the call cannot go on for lack of memory or of room on the stack,
or it comes to a call of that function with these arguments, and its results are those
of the loader.

* `handingCode`, `FunctionCode.HandsOn` — the code of such a loader.
* `handed` — the arguments that it hands on.
* `Machine.comes_calling` — it comes to the call.
* `Machine.comesLoaded_of_loads` — what it comes to if that function loads only texts.
* `Machine.comesLoaded_load`, `Machine.comesRefused_load`, … — the two loaders.
-/

namespace NpcDialog

open Lua
open Bytes (ofText)

/-! ## The code -/

/-- The instructions of a loader that hands on its first `k` arguments, the mode of
texts in the place of the one that was asked for, and all arguments behind it. -/
def handingCode (k : Nat) : Array Instr :=
  #[.varargPrep (k + 1), .getCaptured (k + 1) 0] ++
    ((Array.range k).map fun i => .move (k + 2 + i) i) ++
    #[.loadConst (2 * k + 2) 0, .vararg (2 * k + 3) none, .tailCall (k + 1) none false,
      .return (k + 1) none false, .return (k + 1) (some 0) false]

/-- The function is such a loader. -/
structure Lua.FunctionCode.HandsOn (f : FunctionCode) (k : Nat) : Prop where
  params : f.params = k + 1
  vararg : f.isVararg = true
  registers : f.registers = 2 * k + 4
  consts : f.consts = #[.str (ofText "t")]
  code : f.code = handingCode k

instance (f : FunctionCode) (k : Nat) : Decidable (f.HandsOn k) :=
  decidable_of_iff (f.params = k + 1 ∧ f.isVararg = true ∧ f.registers = 2 * k + 4 ∧
      f.consts = #[.str (ofText "t")] ∧ f.code = handingCode k)
    ⟨fun ⟨params, vararg, registers, consts, code⟩ => ⟨params, vararg, registers, consts, code⟩,
      fun ⟨params, vararg, registers, consts, code⟩ => ⟨params, vararg, registers, consts, code⟩⟩

/-- An argument, or the mode of texts in place of the one behind the first `k`. -/
def handedAt (k : Nat) (args : Array Value) (i : Nat) : Value :=
  if i = k then .ofText "t" else args.getD i .nil

/-- The arguments with the mode of texts as the one behind the first `k`. -/
def handed (k : Nat) (args : Array Value) : Array Value :=
  (Array.range (max args.size (k + 1))).map (handedAt k args)

theorem handingCode_move {k i : Nat} (named : i < k) :
    (handingCode k)[2 + i]? = some (.move (k + 2 + i) i) := by
  rw [handingCode, Array.getElem?_append_left (by simp; omega), Array.getElem?_append_right (by simp)]
  simp [named]

theorem handingCode_behind (k i : Nat) : (handingCode k)[2 + k + i]? =
    #[Instr.loadConst (2 * k + 2) 0, .vararg (2 * k + 3) none, .tailCall (k + 1) none false,
      .return (k + 1) none false, .return (k + 1) (some 0) false][i]? := by
  rw [handingCode, Array.getElem?_append_right (by simp)]
  congr 1
  simp

theorem handingCode_before (k : Nat) {i : Nat} (before : i < 2) : (handingCode k)[i]? =
    #[Instr.varargPrep (k + 1), .getCaptured (k + 1) 0][i]? := by
  rw [handingCode, Array.append_assoc, Array.getElem?_append_left (by simpa using before)]

namespace Lua.Machine

/-! ## A call -/

/-- A loader is innermost, in the call `a`, with memory enough to go on.  What lies in
front of its registers is what lay there in the machine `m₀`. -/
structure InLoader (m₀ m : Machine) (a : Activation) (rest : List Frame) (k : Nat) : Prop where
  frames : m.frames = .lua a :: rest
  memory : m.HasMemory
  body : a.body.HandsOn k
  room : a.base + a.body.registers ≤ m.stack.size
  things : m₀.SameThings m
  below : ∀ i < a.base, m.slot i = m₀.slot i

/-- The loader has these arguments, and the function that it captures first is built
in. -/
structure Handing (m₀ m : Machine) (a : Activation) (rest : List Frame) (k : Nat) (b : Builtin)
    (args : Array Value) : Prop extends InLoader m₀ m a rest k where
  control : m.control = .run
  original : m.heap.cells[a.cells.getD 0 0]? = some (.closed (.builtin b))
  extra : a.extra = args.size - (k + 1)
  apart : a.extra < a.base
  named : ∀ i < k, m.slot (a.base + i) = args.getD i .nil
  others : ∀ i < a.extra, m₀.slot (a.base - 1 - a.extra + i) = args.getD (k + 1 + i) .nil

namespace Handing

variable {m₀ m : Machine} {a : Activation} {rest : List Frame} {k : Nat} {b : Builtin}
  {args : Array Value} (h : m₀.Handing m a rest k b args)
include h

theorem at_ (pc : Nat) : m₀.Handing { m with pc } a rest k b args := { h with }

/-- The registers behind the first ones are free for other values. -/
theorem setReg {r : Nat} (behind : k ≤ r) (pc : Nat) (x : Value) :
    m₀.Handing ({ m with pc }.setReg a r x) a rest k b args :=
  { h with
    room := by
      show _ ≤ (m.setSlot _ _).stack.size
      rw [size_setSlot]
      exact h.room
    below := fun i below => (slot_setSlot_ne m (by omega) x).trans (h.below i below)
    named := fun i named => (slot_setSlot_ne m (by omega) x).trans (h.named i named) }

/-- A register that is set. -/
theorem slot_setReg {r : Nat} (there : r < 2 * k + 4) (pc : Nat) (x : Value) :
    ({ m with pc }.setReg a r x).slot (a.base + r) = x := by
  have room := h.room
  rw [h.body.registers] at room
  exact slot_setSlot { m with pc } (show a.base + r < m.stack.size by omega) x

theorem step_eq (run : Runner) (v : Conversation) {pc : Nat} (at_ : m.pc = pc) {i : Instr}
    (code : (handingCode k)[pc]? = some i) :
    m.step run v = (.next ({ m with pc := pc + 1 }.execute a i), v) := by
  subst at_
  exact step_execute h.frames h.control h.memory (by rw [h.body.code, code]) run v

end Handing

/-- The loader has put the function it captures, and so many of the arguments that it
hands on, in their registers. -/
structure Filling (m₀ m : Machine) (a : Activation) (rest : List Frame) (k : Nat) (b : Builtin)
    (args : Array Value) (n : Nat) : Prop extends Handing m₀ m a rest k b args where
  pc : m.pc = 2 + n
  callee : m.slot (a.base + (k + 1)) = .builtin b
  filled : ∀ i < n, m.slot (a.base + (k + 2 + i)) = handedAt k args i

/-- The loader is about to call the function that it captures. -/
structure Ready (m₀ m : Machine) (a : Activation) (rest : List Frame) (k : Nat) (b : Builtin)
    (args : Array Value) : Prop extends InLoader m₀ m a rest k where
  control : m.control = .run
  pc : m.pc = 2 + k + 2
  top : m.top = a.base + (k + 2) + max args.size (k + 1)
  callee : m.slot (a.base + (k + 1)) = .builtin b
  filled : ∀ i < max args.size (k + 1), m.slot (a.base + (k + 2 + i)) = handedAt k args i

/-- The loader calls the function that it captures, and what remains to do then is to
return the results. -/
structure Calling (m₀ m : Machine) (a : Activation) (rest : List Frame) (k : Nat) (b : Builtin)
    (args : Array Value) : Prop extends InLoader m₀ m a rest k where
  pc : m.pc = 2 + k + 3
  control : m.control = .call (.builtin b) (handed k args) (a.base + (k + 1))
    (.slots (a.base + (k + 1)) none) false

variable {m₀ m : Machine} {a : Activation} {rest : List Frame} {k : Nat} {b : Builtin}
  {args : Array Value}

/-- The loader loads the function that it captures. -/
theorem Handing.loads (h : m₀.Handing m a rest k b args) (pc : m.pc = 0) (run : Runner)
    (v : Conversation) : ∃ m', Leads run 2 m v m' v ∧ m₀.Filling m' a rest k b args 0 := by
  have started := h.step_eq run v pc (handingCode_before k (by omega))
  have next : m₀.Handing { m with pc := 1 } a rest k b args := h.at_ 1
  have found : ({ m with pc := 2 }).readCell (a.cells.getD 0 0) = .builtin b := by
    have original : ({ m with pc := 2 }).heap.cells[a.cells.getD 0 0]? = _ := h.original
    rw [readCell, original]
  have pc' : ({ m with pc := 1 }).pc = 1 := rfl
  have loaded := next.step_eq run v pc' (handingCode_before k (by omega))
  refine ⟨_, .step started (.one loaded), ?_⟩
  show m₀.Filling ({ m with pc := 2 }.setReg a (k + 1) (readCell _ _)) a rest k b args 0
  rw [found]
  exact { h.setReg (by omega) 2 _ with
    pc := rfl
    callee := h.slot_setReg (by omega) 2 _
    filled := fun i lt => absurd lt (Nat.not_lt_zero i) }

namespace Filling

variable {n : Nat}

/-- One more argument. -/
theorem fill (h : m₀.Filling m a rest k b args n) (le : n ≤ k) :
    m₀.Filling ({ m with pc := 2 + (n + 1) }.setReg a (k + 2 + n) (handedAt k args n)) a rest k b
      args (n + 1) :=
  { h.toHanding.setReg (by omega) _ _ with
    pc := rfl
    callee := (slot_setSlot_ne m (by omega) _).trans h.callee
    filled := fun i lt => by
      by_cases last : i = n
      · subst last
        exact h.toHanding.slot_setReg (by omega) _ _
      · exact (slot_setSlot_ne m (by omega) _).trans (h.filled i (by omega)) }

/-- The arguments in front of the mode.  The induction is on those that are missing. -/
theorem moves (h : m₀.Filling m a rest k b args n) {missing : Nat} (all : n + missing = k)
    (run : Runner) (v : Conversation) :
    ∃ m', Leads run missing m v m' v ∧ m₀.Filling m' a rest k b args k := by
  induction missing generalizing m n with
  | zero =>
    obtain rfl : n = k := all
    exact ⟨m, .none m v, h⟩
  | succ missing ih =>
    have step := h.toHanding.step_eq run v h.pc (handingCode_move (by omega))
    have value : ({ m with pc := 2 + n + 1 }).reg a n = handedAt k args n := by
      rw [handedAt, if_neg (by omega)]
      exact h.named n (by omega)
    obtain ⟨m', leads, filled⟩ := ih (h.fill (by omega)) (by omega)
    refine ⟨m', .step ?_ leads, filled⟩
    rw [step]
    show (Step.next ({ m with pc := 2 + n + 1 }.setReg a (k + 2 + n) (reg _ a n)), v) = _
    rw [value]
    rfl

/-- The mode of texts. -/
theorem mode (h : m₀.Filling m a rest k b args k) (run : Runner) (v : Conversation) :
    ∃ m', Leads run 1 m v m' v ∧ m₀.Filling m' a rest k b args (k + 1) := by
  have step := h.toHanding.step_eq run v h.pc (handingCode_behind k 0)
  refine ⟨_, .one step, ?_⟩
  have value : const a 0 = handedAt k args k := by
    rw [handedAt, if_pos rfl, const, h.body.consts]
    rfl
  have register : 2 * k + 2 = k + 2 + k := by omega
  show m₀.Filling ({ m with pc := 2 + k + 1 }.setReg a (2 * k + 2) (const a 0)) a rest k b args (k + 1)
  rw [value, register]
  exact h.fill (Nat.le_refl k)

/-- The arguments behind the mode, unless the stack is too small for them. -/
theorem spreads (h : m₀.Filling m a rest k b args (k + 1)) (run : Runner) (v : Conversation) :
    ∃ m', m.step run v = (.next m', v) ∧ (m'.Starved ∨ m₀.Ready m' a rest k b args) := by
  have step := h.toHanding.step_eq run v h.pc (handingCode_behind k 1)
  refine ⟨_, step, ?_⟩
  show ({ m with pc := 2 + (k + 1) + 1 }.loadExtra a (2 * k + 3) none).Starved ∨
    m₀.Ready ({ m with pc := 2 + (k + 1) + 1 }.loadExtra a (2 * k + 3) none) a rest k b args
  simp only [loadExtra, Option.getD_none, Option.isNone_none, if_true, Nat.min_self, Nat.sub_self,
    clearFrom]
  split
  · exact .inl (.inr ⟨_, rfl⟩)
  · refine .inr ?_
    have extra := h.extra
    have apart := h.apart
    have room := h.room
    have wider := size_le_withSlots { m with pc := 2 + (k + 1) + 1 } (a.base + (2 * k + 3) + a.extra)
    have there := size_withSlots { m with pc := 2 + (k + 1) + 1 } (a.base + (2 * k + 3) + a.extra)
    have slots : ∀ i, (({ m with pc := 2 + (k + 1) + 1 }.withSlots
        (a.base + (2 * k + 3) + a.extra)).copySlots (a.base - 1 - a.extra) (a.base + (2 * k + 3))
          a.extra).slot i =
        if a.base + (2 * k + 3) ≤ i ∧ i < a.base + (2 * k + 3) + a.extra then
          m.slot (a.base - 1 - a.extra + (i - (a.base + (2 * k + 3)))) else m.slot i := by
      intro i
      rw [slot_copySlots _ (by omega) there, slot_withSlots, slot_withSlots]
      rfl
    have size := size_copySlots ({ m with pc := 2 + (k + 1) + 1 }.withSlots
      (a.base + (2 * k + 3) + a.extra)) (a.base - 1 - a.extra) (a.base + (2 * k + 3)) a.extra
    rw [withSlots_eq] at slots size wider ⊢
    rw [copySlots_eq] at slots size ⊢
    refine ⟨⟨h.frames, h.memory, h.body, ?_, h.things, ?_⟩, h.control, rfl, ?_, ?_, ?_⟩
    · exact Nat.le_trans room (Nat.le_trans wider (Nat.le_of_eq size.symm))
    · exact fun i lt => (slots i).trans ((if_neg (by omega)).trans (h.below i lt))
    · show a.base + (2 * k + 3) + a.extra = _
      omega
    · exact (slots _).trans ((if_neg (by omega)).trans h.callee)
    · intro i lt
      refine (slots _).trans ?_
      by_cases filled : i < k + 1
      · rw [if_neg (by omega)]
        exact h.filled i filled
      · rw [if_pos (by omega), handedAt, if_neg (by omega)]
        have other := h.others (i - (k + 1)) (by omega)
        rw [show k + 1 + (i - (k + 1)) = i by omega] at other
        rw [← other, h.below _ (by omega)]
        congr 1
        omega

end Filling

/-- The loader calls the function that it captures. -/
theorem Ready.calls (h : m₀.Ready m a rest k b args) (run : Runner) (v : Conversation) :
    ∃ m', m.step run v = (.next m', v) ∧ m₀.Calling m' a rest k b args := by
  have code : a.body.code[m.pc]? = some (.tailCall (k + 1) none false) := by
    rw [h.body.code, h.pc]
    exact handingCode_behind k 2
  have step := step_execute h.frames h.control h.memory code run v
  have callee (pc : Nat) : ({ m with pc }).slot (a.base + (k + 1)) = .builtin b := h.callee
  have settled (pc : Nat) : ({ m with pc }.settle a).slot (a.base + (k + 1)) = .builtin b := h.callee
  have count : m.top - (a.base + (k + 1) + 1) = max args.size (k + 1) := by
    rw [h.top]
    omega
  have values (pc : Nat) : ({ m with pc }.settle a).valuesFrom (a.base + (k + 1) + 1)
      (max args.size (k + 1)) = handed k args := by
    refine Array.map_congr_left fun i mem => ?_
    rw [Array.mem_range] at mem
    rw [← h.filled i mem]
    exact congrArg m.slot (by omega)
  have called : { m with pc := m.pc + 1 }.execute a (.tailCall (k + 1) none false) =
      { { m with pc := m.pc + 1 }.settle a with
        control := .call (.builtin b) (handed k args) (a.base + (k + 1))
          (.slots (a.base + (k + 1)) none) false } := by
    simp only [execute, Bool.false_eq_true, if_false, Option.getD_none]
    rw [callee]
    simp only [callSlots]
    rw [settled]
    simp only [count, values]
  refine ⟨_, step, ?_⟩
  rw [called]
  exact { h with
    pc := congrArg (· + 1) h.pc
    control := rfl }

/-- A function of the machine is a loader in front of a built-in function. -/
structure IsLoader (m : Machine) (id k : Nat) (b : Builtin) (c : Closure) : Prop where
  found : m.heap.closures[id]? = some c
  hands : c.code.HandsOn k
  original : m.heap.cells[c.cells.getD 0 0]? = some (.closed (.builtin b))

/-- The arguments of a loader lie where it looks for them. -/
theorem Entered.handing {start : Nat} (h : Entered m₀ m a rest start args) (hands : a.body.HandsOn k)
    (original : m₀.heap.cells[a.cells.getD 0 0]? = some (.closed (.builtin b)))
    (memory : m.HasMemory) : m₀.Handing m a rest k b args where
  frames := h.frames
  memory := memory
  body := hands
  room := h.room
  things := h.things
  below := h.below
  control := h.control
  original := by
    obtain ⟨used, same⟩ := h.things
    rw [same]
    exact original
  extra := by rw [h.extra, hands.vararg, if_pos rfl, hands.params]
  apart := by
    have behind := h.behind
    omega
  named i named := h.named i (by rw [hands.params]; omega)
  others i other := by
    rw [← hands.params]
    exact h.others i other

/-- Whatever the arguments of a loader are, it comes to a call of the function behind
it, in the mode of texts. -/
theorem comes_calling {id : Nat} {c : Closure} (h : m.IsLoader id k b c) (s : Site) (run : Runner)
    (v : Conversation) : Comes run (m.callAt id s) v fun m' v' =>
      v' = v ∧ ∃ a, m.Calling m' a s.frames k b (m.argsAt s).values ∧ s.start < a.base ∧
        a.deliver = s.deliver ∧ a.depth = s.depth := by
  have fits : c.code.params ≤ c.code.registers := by
    rw [h.hands.params, h.hands.registers]
    omega
  rcases m.entered_callAt h.found fits s with
    starved | ⟨a, entered, body, captured, delivers, deep⟩
  · exact .starved starved
  generalize m.callAt id s = e at entered
  refine (comes_counted entered.control run v).bind ?_
  rintro e' v' ⟨rfl, ⟨used, drift, rfl⟩, memory⟩
  have counted : Entered m { e with heap := { e.heap with used }, drift } a s.frames s.start _ :=
    { entered with things := entered.things.trans ⟨used, rfl⟩ }
  have handing := counted.handing (body ▸ h.hands) (captured ▸ h.original) memory
  obtain ⟨m₁, loads, filling⟩ := handing.loads entered.pc run v'
  obtain ⟨m₂, moves, filled⟩ := filling.moves (Nat.zero_add k) run v'
  obtain ⟨m₃, modes, moded⟩ := filled.mode run v'
  obtain ⟨m₄, spreads, starved | ready⟩ := moded.spreads run v'
  · exact .after (loads.trans (moves.trans (modes.trans (.one spreads)))) (.starved starved)
  · obtain ⟨m₅, calls, calling⟩ := ready.calls run v'
    refine .after (loads.trans (moves.trans (modes.trans (.step spreads (.one calls))))) (.here ?_)
    have behind := entered.behind
    exact ⟨rfl, a, calling, by omega, delivers, deep⟩

/-! ## The results -/

/-- The results of the function behind a loader are those of the loader. -/
theorem Calling.leaves (h : m₀.Calling m a rest k b args) {run : Runner} {v v' : Conversation}
    {vs : Array Value} {m' : Machine}
    (performed : perform run (.builtin b) (a.base + (k + 1)) (b.routine none (handed k args))
      { m with control := .run } v = ((.ended (.results vs), m'), v'))
    (stays : m.Stays m') : Comes run m v fun y w => w = v' ∧ ∃ x pc,
      x.Leaving { a with pc } rest (a.base + (k + 1)) vs ∧ m'.SameThings x ∧
        m'.stack.size ≤ x.stack.size ∧ (∀ i < a.base + (k + 1), x.slot i = m'.slot i) ∧
        y = x.leave { a with pc } (a.base + (k + 1)) vs.size := by
  have concluded := step_builtin h.control performed
  refine .step concluded ((comes_given rfl run v').bind ?_)
  rintro x v'' ⟨rfl, given⟩
  have held : m'.heldFrames = .lua { a with pc := m.pc } :: rest := by
    rw [stays.frames, heldFrames, h.frames]
  obtain ⟨pc, frames⟩ := frames_of_held held
  have innermost : x.frames = .lua { a with pc } :: rest := given.frames.trans frames
  have code : a.body.code[x.pc]? = some (.return (k + 1) none false) := by
    rw [h.body.code, given.pc.trans (stays.pc.trans h.pc)]
    exact handingCode_behind k 3
  have count : x.top - (a.base + (k + 1)) = vs.size := by
    rw [given.top]
    omega
  have returned : { x with pc := x.pc + 1 }.execute { a with pc } (.return (k + 1) none false) =
      { x with pc := x.pc + 1 }.leave { a with pc } (a.base + (k + 1)) vs.size := by
    simp only [execute, Bool.false_eq_true, if_false, Option.getD_none, count]
  refine .step (step_execute innermost given.control given.memory code run v'') (.here ?_)
  refine ⟨rfl, { x with pc := x.pc + 1 }, pc, ?_, given.things, given.size, given.below, returned⟩
  exact ⟨innermost, given.control, given.memory, given.room, given.values⟩

/-! ## What loaders come to -/

theorem Calling.ended (h : m₀.Calling m a rest k b args) {run : Runner} {v v' : Conversation}
    {vs : Array Value} {m' : Machine}
    (performed : perform run (.builtin b) (a.base + (k + 1)) (b.routine none (handed k args))
      { m with control := .run } v = ((.ended (.results vs), m'), v'))
    (stays : m.Stays m') {s : Site} (frames : s.frames = rest) (deliver : a.deliver = s.deliver)
    (depth : a.depth = s.depth) : Comes run m v fun y w => w = v' ∧ y.EndedAt s vs ∧
      y.heap.closures = m'.heap.closures := by
  subst frames
  refine (h.leaves performed stays).imp ?_
  rintro y w ⟨rfl, x, pc, leaving, ⟨used, same⟩, -, -, rfl⟩
  refine ⟨rfl, ⟨x, _, _, leaving, deliver, depth, rfl⟩, ?_⟩
  rw [heap_leave, same]

theorem getD_handed {i : Nat} (lt : i < max args.size (k + 1)) :
    (handed k args).getD i .nil = handedAt k args i := by
  simp [handed, Array.getD, lt]

theorem get_handed_mode (k : Nat) (args : Array Value) :
    (⟨handed k args⟩ : Args).get (k + 1) = .str Loading.textMode := by
  rw [Args.get, Nat.add_sub_cancel, getD_handed (by omega), handedAt, if_pos rfl]
  rfl

theorem get_handed {i : Nat} (named : i < k) :
    (⟨handed k args⟩ : Args).get (i + 1) = (⟨args⟩ : Args).get (i + 1) := by
  rw [Args.get, Args.get, Nat.add_sub_cancel, getD_handed (by omega), handedAt, if_neg (by omega)]

/-- A call of a loader comes to what loading a text comes to, or to a fault. -/
def ComesLoaded (run : Runner) (e : Machine) (v : Conversation) (s : Site) (kind : Bytes → Prop) :
    Prop :=
  Comes run e v fun y _ => (∃ f, y.control = .raise f) ∨ ∃ vs, y.EndedAt s vs ∧ y.Loaded kind vs

/-- A call of a loader comes to nothing and a message about the mode, and nothing else
happens. -/
def ComesRefused (run : Runner) (e : Machine) (v : Conversation) (s : Site) : Prop :=
  Comes run e v fun y w => w = v ∧ y.EndedAt s #[.nil, .str Loading.refusal]

/-- What a loader comes to, if the function behind it loads only texts of some kind. -/
theorem comesLoaded_of_loads {id : Nat} {c : Closure} (h : m.IsLoader id k b c) (s : Site)
    {reads : Bool} {kind : Bytes → Prop}
    (loads : (b.routine none (handed k (m.argsAt s).values)).LoadsText reads kind) (run : Runner)
    (v : Conversation) : ComesLoaded run (m.callAt id s) v s kind := by
  refine (comes_calling h s run v).bind ?_
  rintro m₁ v ⟨rfl, a, calling, -, deliver, depth⟩
  obtain ⟨loaded, stays⟩ := loads.perform run (.builtin b) (a.base + (k + 1))
    { m₁ with control := .run } v
  cases performed : perform run (.builtin b) (a.base + (k + 1))
      (b.routine none (handed k (m.argsAt s).values)) { m₁ with control := .run } v with
  | mk answer v' =>
    obtain ⟨o, m₂⟩ := answer
    rw [performed] at loaded stays
    have still : m₁.Stays m₂ := ⟨stays.pc, stays.frames⟩
    cases loaded with
    | fails f => exact .step (step_builtin calling.control performed) (.here (.inl ⟨f, rfl⟩))
    | @ends vs loaded =>
      refine (calling.ended performed still rfl deliver depth).imp ?_
      rintro y w ⟨-, ended, same⟩
      exact .inr ⟨vs, ended, loaded.of_closures same⟩

/-! ## The function that loads from a string or a reader -/

section Load

variable {id : Nat} {c : Closure} (h : m.IsLoader id 2 .load c) (s : Site) (run : Runner)
  (v : Conversation)
include h

/-- It makes a function of a text, or none.  If the chunk is a string, it is this text. -/
theorem comesLoaded_load : ComesLoaded run (m.callAt id s) v s fun bytes =>
    ∀ t, Args.textOf? ((m.argsAt s).get 1) = some t → bytes = t := by
  have loads := Loading.loads_load (get_handed_mode 2 (m.argsAt s).values)
  rw [get_handed (by omega)] at loads
  exact comesLoaded_of_loads h s loads run v

variable (named : (m.argsAt s).isAbsent 2 = true ∨ (Args.textOf? ((m.argsAt s).get 2)).isSome = true)
include named

/-- An archive that is given as a string is refused. -/
theorem comesRefused_load {t : Bytes} (text : Args.textOf? ((m.argsAt s).get 1) = some t)
    (archive : Archive.isArchive t = true) : ComesRefused run (m.callAt id s) v s := by
  refine (comes_calling h s run v).bind ?_
  rintro m' v' ⟨rfl, a, calling, -, deliver, depth⟩
  have performed := Loading.perform_load_archive run (.builtin .load) (a.base + (2 + 1))
    { m' with control := .run } v' (get_handed_mode 2 (m.argsAt s).values)
    (by rwa [Args.isAbsent, get_handed (by omega)]) (by rwa [get_handed (by omega)]) archive
  refine (calling.ended performed (.of_eq rfl rfl) rfl deliver depth).imp ?_
  rintro y w ⟨told, ended, -⟩
  exact ⟨told, ended⟩

/-- So is an archive of which a reader gives the first piece: when the function behind
the loader has called it and got this piece, it asks for no more. -/
theorem comes_load_piece (reader : ((m.argsAt s).get 1).isFunction = true) :
    Comes run (m.callAt id s) v fun m' v' => v' = v ∧ ∃ slot,
      m'.control = .call (.builtin .load) (handed 2 (m.argsAt s).values) slot (.slots slot none)
        false ∧
      ∀ (vs : Array Value) (m'' : Machine) (w : Conversation) (t : Bytes),
        attemptCall run (slot + 1) ((m.argsAt s).get 1) #[] { m' with control := .run } v =
          ((.ok vs, m''), w) →
        Args.textOf? (vs.getD 0 .nil) = some t → Archive.isArchive t = true →
        Comes run m' v fun y w' => w' = w ∧ y.EndedAt s #[.nil, .str Loading.refusal] := by
  refine (comes_calling h s run v).imp ?_
  rintro m' v' ⟨rfl, a, calling, -, deliver, depth⟩
  refine ⟨rfl, _, calling.control, fun vs m'' w t gave text archive => ?_⟩
  have stays := @Stays.attemptCall run (a.base + (2 + 1) + 1) ((m.argsAt s).get 1) #[]
    { m' with control := .run } v'
  rw [gave] at stays
  have performed := Loading.perform_load_piece run (.builtin .load) (a.base + (2 + 1))
    { m' with control := .run } v' (get_handed_mode 2 (m.argsAt s).values)
    (by rwa [Args.isAbsent, get_handed (by omega)]) (by rwa [get_handed (by omega)])
    (by rwa [get_handed (by omega)]) text archive
  refine (calling.ended performed ⟨stays.pc, stays.frames⟩ rfl deliver depth).imp ?_
  rintro y w ⟨told, ended, -⟩
  exact ⟨told, ended⟩

end Load

/-! ## The function that loads files -/

/-- It is called for a file that holds an archive. -/
theorem Calling.performed_archive (h : m₀.Calling m a rest 1 .loadfile args)
    (archive : m₀.heap.HoldsArchive ((⟨args⟩ : Args).get 1)) (run : Runner) (v : Conversation) :
    perform run (.builtin .loadfile) (a.base + (1 + 1))
      (Builtin.loadfile.routine none (handed 1 args)) { m with control := .run } v =
        ((.ended (.results #[.nil, .str Loading.refusal]), { m with control := .run }), v) := by
  obtain ⟨path, contents, file, there, archive⟩ := archive
  have same : m.heap.files = m₀.heap.files := by
    obtain ⟨used, same⟩ := h.things
    rw [same]
  exact Loading.perform_loadFile_archive run (.builtin .loadfile) (a.base + (1 + 1))
    { m with control := .run } v (get_handed_mode 1 args)
    (by rw [get_handed (by omega), file]) (by rw [same, there]) archive

section LoadFile

variable {id : Nat} {c : Closure} (h : m.IsLoader id 1 .loadfile c) (s : Site) (run : Runner)
  (v : Conversation)
include h

/-- It makes a function of a text, or none. -/
theorem comesLoaded_loadFile : ComesLoaded run (m.callAt id s) v s fun _ => True :=
  comesLoaded_of_loads h s (Loading.loads_loadFile (get_handed_mode 1 _)) run v

/-- A file that holds an archive is refused. -/
theorem comesRefused_loadFile (archive : m.heap.HoldsArchive ((m.argsAt s).get 1)) :
    ComesRefused run (m.callAt id s) v s := by
  refine (comes_calling h s run v).bind ?_
  rintro m' v' ⟨rfl, a, calling, -, deliver, depth⟩
  have performed := calling.performed_archive archive run v'
  refine (calling.ended performed (.of_eq rfl rfl) rfl deliver depth).imp ?_
  rintro y w ⟨told, ended, -⟩
  exact ⟨told, ended⟩

end LoadFile

end Lua.Machine

end NpcDialog
