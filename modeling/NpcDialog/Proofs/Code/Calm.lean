import NpcDialog.Proofs.Code.Scopes

/-!
# Steps that keep the variables

Most of what the compiler does has nothing to do with scopes: it emits instructions,
chooses registers and patches jumps.

* `Gen.Calm` — such a step: it leaves the variables of the function, the blocks around
  the place that is written, the captured variables and the functions inside alone.
* `Gen.calm_bind` and others — the steps of the compiler that are calm.
* `Operand.Meets`, `Operand.Foretold` — an operand is what is told of its value, where
  the evaluation may have ended earlier or not.
-/

namespace NpcDialog.Lua

/-- Two states of compilation with the same variables, captured variables and functions. -/
structure Builder.Same (b b' : Builder) : Prop where
  outer : b'.outer = b.outer
  vars : b'.draft.vars = b.draft.vars
  active : b'.draft.active = b.draft.active
  scopes : b'.draft.scopes = b.draft.scopes
  captures : b'.draft.captures = b.draft.captures
  children : b'.draft.children = b.draft.children

/-- What is kept from one state to the next and from there to a third is kept from the
first one on. -/
theorem Builder.Same.trans {b b' b'' : Builder} (h : b.Same b') (k : b'.Same b'') : b.Same b'' :=
  ⟨k.outer.trans h.outer, k.vars.trans h.vars, k.active.trans h.active, k.scopes.trans h.scopes,
    k.captures.trans h.captures, k.children.trans h.children⟩

namespace Gen

variable {α β : Type}

/-- A step that keeps the variables, the captured ones and the functions inside. -/
def Calm (a : Gen α) : Prop := ∀ b v b', a b = .ok (v, b') → b.Same b'

/-- Two steps in a row succeed only if both do; the state between them is named. -/
theorem bind_ok {x : Gen α} {f : α → Gen β} {b b'' : Builder} {w : β}
    (run : (x >>= f) b = .ok (w, b'')) :
    ∃ v b', x b = .ok (v, b') ∧ f v b' = .ok (w, b'') := by
  cases first : x b with
  | error e =>
    have : (x >>= f) b = .error e := by simp [bind, StateT.bind, first, Except.bind]
    rw [this] at run; cases run
  | ok p =>
    refine ⟨p.1, p.2, rfl, ?_⟩
    rw [← run]
    simp [bind, StateT.bind, first, Except.bind]

/-- To do nothing keeps everything. -/
@[grind ←]
theorem calm_pure (v : α) : Calm (pure v) := by
  rintro b _ _ ⟨⟩
  exact ⟨rfl, rfl, rfl, rfl, rfl, rfl⟩

/-- Two calm steps in a row are calm.  With this rule `grind` takes the steps of the
compiler apart. -/
@[grind ←]
theorem calm_bind {x : Gen α} {f : α → Gen β} (first : Calm x) (next : ∀ v, Calm (f v)) :
    Calm (x >>= f) := by
  intro b w b'' run
  obtain ⟨v, b', ran, goes⟩ := bind_ok run
  have h := first _ _ _ ran
  have k := next _ _ _ _ goes
  exact ⟨k.outer.trans h.outer, k.vars.trans h.vars, k.active.trans h.active,
    k.scopes.trans h.scopes,
    k.captures.trans h.captures, k.children.trans h.children⟩

/-- The same where the first step has no result to speak of. -/
@[grind ←]
theorem calm_next {x : Gen PUnit} {f : PUnit → Gen β} (first : Calm x) (next : Calm (f ⟨⟩)) :
    Calm (x >>= f) :=
  calm_bind first fun _ => next

/-- To look at the state keeps it. -/
@[grind ←]
theorem calm_get : Calm (get : Gen Builder) := by
  rintro b _ _ ⟨⟩
  exact ⟨rfl, rfl, rfl, rfl, rfl, rfl⟩

/-- A step that fails has no state behind it. -/
@[grind ←]
theorem calm_throw (e : ChunkFault) : Calm (throw e : Gen α) := by
  rintro b _ _ ⟨⟩

/-- A change of a function under construction is calm if it keeps the five parts that
scopes are about. -/
@[grind ←]
theorem calm_change {f : Draft → Draft} (same : ∀ d, (f d).vars = d.vars ∧ (f d).active = d.active ∧
    (f d).scopes = d.scopes ∧ (f d).captures = d.captures ∧ (f d).children = d.children) : Calm (change f) := by
  rintro b _ _ ⟨⟩
  obtain ⟨a, b, c, d, e⟩ := same b.draft
  exact ⟨rfl, a, b, c, d, e⟩

/-- What is made of a result does not matter. -/
@[grind ←]
theorem calm_map {x : Gen α} (g : α → β) (first : Calm x) : Calm (g <$> x) := by
  rw [map_eq_pure_bind]; exact calm_bind first fun v => calm_pure _

/-- Nor does it matter whether the result is used. -/
@[grind ←]
theorem calm_discard {x : Gen α} (first : Calm x) : Calm (discard x) := calm_map _ first

/-- A calm step for each element of a list.  The induction is on the list. -/
@[grind ←]
theorem calm_forM (l : List α) {f : α → Gen PUnit} (each : ∀ a, Calm (f a)) : Calm (l.forM f) := by
  induction l with
  | nil => exact calm_pure _
  | cons a l ih => exact calm_bind (each a) fun _ => ih

@[grind ←]
theorem calm_draft : Calm draft := by unfold draft; grind

/-- To write an instruction keeps the variables; it only makes the code longer. -/
@[grind ←]
theorem calm_emit (i : Instr) : Calm (emit i) := by
  unfold emit
  refine calm_bind calm_get fun b => calm_bind (calm_change fun _ =>
    ⟨rfl, rfl, rfl, rfl, rfl⟩) fun _ => calm_pure _

@[grind ←]
theorem calm_checkReadable : Calm checkReadable := by unfold checkReadable; grind

@[grind ←]
theorem calm_faultNear (m : Bytes) : Calm (faultNear m : Gen α) := by unfold faultNear; grind

@[grind ←]
theorem calm_controlOf (pc : Nat) :
    Calm (Operand.controlOf pc) := by unfold Operand.controlOf; grind

/-- To change an instruction that is written keeps them too. -/
@[grind ←]
theorem calm_patch (pc f) : Calm (patch pc f) := calm_change fun _ => ⟨rfl, rfl, rfl, rfl, rfl⟩

@[grind ←]
theorem calm_instrAt (pc : Nat) : Calm (instrAt pc) := by unfold instrAt; grind

@[grind ←]
theorem calm_patchTest (pc r) : Calm (Operand.patchTest pc r) := by unfold Operand.patchTest; grind

/-- What every round of a counted loop carries on is so behind the loop. -/
theorem natForM_ok {n : Nat} {f : (i : Nat) → i < n → Gen Unit} {P : Nat → Builder → Prop}
    (round : ∀ i h k b v b', P k b → f i h b = .ok (v, b') → P (k + 1) b') {b b' : Builder}
    {v : Unit}
    (start : P 0 b) (run : n.forM f b = .ok (v, b')) : P n b' := by
  have rounds : ∀ loop : (i : Nat) → i ≤ n → Gen Unit, (∀ h, loop 0 h = pure ()) →
      (∀ i h, loop (i + 1) h = (do f (n - i - 1) (by omega); loop i (Nat.le_of_succ_le h))) →
      ∀ i h k b, k + i = n → P k b → loop i h b = .ok (v, b') → P n b' := by
    intro loop none_ more i
    induction i with
    | zero =>
      rintro h k b rfl start run
      rw [none_] at run
      cases run
      exact start
    | succ i ih =>
      intro h k b total start run
      rw [more] at run
      obtain ⟨u, b₁, first, rest⟩ := bind_ok run
      exact ih _ (k + 1) b₁ (by omega) (round _ _ _ _ _ _ start first) rest
  unfold Nat.forM at run
  refine rounds _ ?_ ?_ n _ 0 b (Nat.zero_add n) start run
  · exact fun _ => rfl
  · exact fun _ _ => rfl

/-- A calm step, repeated a number of times. -/
theorem calm_natForM (n : Nat) {f : (i : Nat) → i < n → Gen Unit} (each : ∀ i h, Calm (f i h)) :
    Calm (n.forM f) := by
  intro b v b' run
  exact natForM_ok (P := fun _ => b.Same) (fun i h _ _ _ _ so ran => so.trans (each i h _ _ _ ran))
    ⟨rfl, rfl, rfl, rfl, rfl, rfl⟩ run

/-- How much of the text has been read is none of the five parts. -/
theorem calm_modifyConsumed (f : Nat → Nat) : Calm
    (modify fun b : Builder => { b with consumed := f b.consumed }) := by
  rintro b _ _ ⟨⟩
  exact ⟨rfl, rfl, rfl, rfl, rfl, rfl⟩

@[grind ←]
theorem calm_advance : Calm advance := calm_bind (calm_modifyConsumed _) fun _ => calm_checkReadable

/-- To go on by several tokens. -/
@[grind ←]
theorem calm_advanceBy (n : Nat) : Calm (advanceBy n) := calm_natForM n fun _ _ => calm_advance

@[grind ←]
theorem calm_nextLine : Calm nextLine := by unfold nextLine; grind

@[grind ←]
theorem calm_faultPlain (m : Bytes) : Calm (faultPlain m : Gen α) := by unfold faultPlain; grind

@[grind ←]
theorem calm_faultLimit (w l) : Calm (faultLimit w l : Gen α) := by unfold faultLimit; grind

@[grind ←]
theorem calm_here : Calm here := by unfold here; grind

/-- To mark a place that jumps may lead to. -/
@[grind ←]
theorem calm_label : Calm label :=
  calm_bind calm_here fun _ => calm_bind (calm_change fun _ => ⟨rfl, rfl, rfl, rfl, rfl⟩) fun _ =>
    calm_pure _

@[grind ←]
theorem calm_fixLine (l) : Calm (fixLine l) := calm_change fun _ => ⟨rfl, rfl, rfl, rfl, rfl⟩

@[grind ←]
theorem calm_removeLast : Calm removeLast := calm_change fun _ => ⟨rfl, rfl, rfl, rfl, rfl⟩

@[grind ←]
theorem calm_previous : Calm previous := by unfold previous; grind

/-- To ask for the first register above all variables. -/
@[grind ←]
theorem calm_variableLevel : Calm variableLevel := by unfold variableLevel; grind

@[grind ←]
theorem calm_constAt (k) : Calm (constAt k) := by unfold constAt; grind

/-- Which register is the next free one is none of the five parts. -/
theorem calm_free (f : Draft → Nat) : Calm (change fun d => { d with free := f d }) :=
  calm_change fun _ => ⟨rfl, rfl, rfl, rfl, rfl⟩

/-- The constants of a function are none of them either. -/
theorem calm_consts (f : Draft → Array Const) : Calm (change fun d => { d with consts := f d }) :=
  calm_change fun _ => ⟨rfl, rfl, rfl, rfl, rfl⟩

/-- To number a constant, which may be a new one. -/
@[grind ←]
theorem calm_constant (c) : Calm (constant c) := by
  unfold constant
  refine calm_bind calm_draft fun d => ?_
  split
  · exact calm_pure _
  · exact calm_bind (calm_consts _) fun _ => calm_pure _

@[grind ←]
theorem calm_checkRegisters (n) : Calm (checkRegisters n) := by unfold checkRegisters; grind

/-- To take registers for temporary values. -/
@[grind ←]
theorem calm_reserve (n) : Calm (reserve n) := calm_bind (calm_checkRegisters n) fun _ => calm_free _

/-- To give a register back. -/
@[grind ←]
theorem calm_release (r) : Calm (release r) := by
  unfold release
  refine calm_bind calm_variableLevel fun l => ?_
  split
  · exact calm_free _
  · exact calm_pure _

@[grind ←]
theorem calm_releaseBoth (r s) : Calm (releaseBoth r s) := by unfold releaseBoth; grind

end Gen

/-! ## Operands -/

/-- The literal that the value of an operand is. -/
def Operand.Kind.literal? : Operand.Kind → Option Literal
  | .nil => some .nil
  | .true => some (.bool Bool.true)
  | .false => some (.bool Bool.false)
  | .number n => some (.number n)
  | .str s => some (.str s)
  | .compileTime c _ => some (.ofConst c)
  | _ => none

/-- Is an operand no name for a constant and no constant of the function? -/
def Operand.Kind.isDirect : Operand.Kind → Bool
  | .compileTime _ _ | .const _ => Bool.false
  | _ => Bool.true

/-- Is an operand what is known of its value? -/
structure Operand.Meets (v : Operand) (f : Forecast) : Prop where
  literal : v.kind.literal? = f.value
  direct : v.kind.isDirect = Bool.true
  whenTrue : v.whenTrue.isEmpty = !f.endsTrue
  whenFalse : v.whenFalse.isEmpty = !f.endsFalse

namespace Gen

open Operand

variable {α β : Type}

@[grind ←]
theorem calm_emitJump : Calm emitJump := calm_emit _

@[grind ←]
theorem calm_fixJump (pc t) : Calm (fixJump pc t) := calm_patch _ _

/-- To send two lists of jumps to their places. -/
@[grind ←]
theorem calm_patchBoth (j t r f) : Calm (patchBoth j t r f) := by unfold patchBoth; grind

@[grind ←]
theorem calm_patchTo (j t) : Calm (patchTo j t) := calm_patchBoth _ _ _ _

@[grind ←]
theorem calm_patchHere (j) : Calm (patchHere j) := by unfold patchHere; grind

/-- To ask whether one of the jumps carries no value of its own. -/
@[grind ←]
theorem calm_needValue (j) : Calm (needValue j) := by
  induction j with
  | nil => exact calm_pure _
  | cons pc rest ih => unfold needValue; grind

/-- To clear registers, maybe by an instruction that is already there. -/
@[grind ←]
theorem calm_emitNil (s n) : Calm (emitNil s n) := by unfold emitNil; grind

@[grind ←]
theorem calm_emitNumber (r n) : Calm (emitNumber r n) := by unfold emitNumber; grind

@[grind ←]
theorem calm_single (e) : Calm (single e) := by unfold single; grind

/-- To read a value.  Variables are read, but stay what they are. -/
@[grind ←]
theorem calm_discharge (e) : Calm (discharge e) := by unfold discharge; grind

/-- To read a value into a register. -/
@[grind ←]
theorem calm_dischargeTo (e r) : Calm (dischargeTo e r) := by unfold dischargeTo; grind

/-- To read a value into some register. -/
@[grind ←]
theorem calm_dischargeAny (e) : Calm (dischargeAny e) := by unfold dischargeAny; grind

@[grind ←]
theorem calm_freeOperand (e) : Calm (Operand.free e) := by unfold Operand.free; grind

@[grind ←]
theorem calm_freeBoth (e f) : Calm (freeBoth e f) := calm_releaseBoth _ _

/-- To read a value into a register, with what the jumps past it bring. -/
@[grind ←]
theorem calm_into (e r) : Calm (into e r) := by
  unfold into
  dsimp only
  repeat' first
    | with_reducible refine calm_bind ?_ fun _ => ?_
    | split
  all_goals grind

end Gen

/-! ## Operands in registers -/

/-- What is known of a value that has been looked up. -/
structure Operand.Foretold (v : Operand) (f : Forecast) : Prop where
  literal : v.kind.literal? = f.value
  noConst : ∀ k, v.kind ≠ .const k
  whenTrue : v.whenTrue.isEmpty = !f.endsTrue
  whenFalse : v.whenFalse.isEmpty = !f.endsFalse

namespace Gen

open Operand

variable {α β : Type}

/-- To read a value into the next free register. -/
@[grind ←]
theorem calm_toNext (e) : Calm (toNext e) := by unfold toNext; grind

/-- To read a value into some register, with what the jumps past it bring. -/
@[grind ←]
theorem calm_toAny (e) : Calm (toAny e) := by unfold toAny; grind

@[grind ←]
theorem calm_anyRegister (e) : Calm (anyRegister e) := by unfold anyRegister; grind

@[grind ←]
theorem calm_toAnyOrCaptured (e) : Calm (toAnyOrCaptured e) := by unfold toAnyOrCaptured; grind

@[grind ←]
theorem calm_toValue (e) : Calm (toValue e) := by unfold toValue; grind

/-- To see whether a value is a constant that an instruction can name. -/
@[grind ←]
theorem calm_toConst? (e) : Calm (toConst? e) := by unfold toConst?; grind

@[grind ←]
theorem calm_toConstOr (e) : Calm (toConstOr e) := by unfold toConstOr; grind

/-- To say how many results a call is to give. -/
@[grind ←]
theorem calm_setResults (e c) : Calm (setResults e c) := by unfold setResults; grind

/-- To write a value into a variable or a field.  The variable stays declared as it is.
-/
@[grind ←]
theorem calm_store (p v) : Calm (store p v) := by unfold store; grind

@[grind ←]
theorem calm_isNameConst (k) : Calm (isNameConst k) := by unfold isNameConst; grind

/-- To name a field of a table. -/
@[grind ←]
theorem calm_index (t k) : Calm (index t k) := by
  unfold index
  dsimp only
  repeat' first
    | with_reducible refine calm_bind ?_ fun _ => ?_
    | split
  all_goals grind

/-- To read a method together with the value that it belongs to. -/
@[grind ←]
theorem calm_self (e k) : Calm (self e k) := by unfold self; grind

@[grind ←]
theorem calm_emitTest (i) : Calm (emitTest i) := by unfold emitTest; grind

/-- To jump when a value is true, or when it is false. -/
@[grind ←]
theorem calm_jumpOn (e c) : Calm (jumpOn e c) := by unfold jumpOn; grind

/-- To go on where a value is true. -/
@[grind ←]
theorem calm_goIfTrue (e) : Calm (goIfTrue e) := by unfold goIfTrue; grind

/-- To go on where a value is false. -/
@[grind ←]
theorem calm_goIfFalse (e) : Calm (goIfFalse e) := by unfold goIfFalse; grind

/-- To negate a value, at once where it is known. -/
@[grind ←]
theorem calm_negation (e) : Calm (negation e) := by
  unfold negation
  dsimp only
  repeat' first
    | with_reducible refine calm_bind ?_ fun _ => ?_
    | split
  all_goals grind

/-- To apply an operator to a value, at once where that can be done. -/
@[grind ←]
theorem calm_unary (o e l) : Calm (Operand.unary o e l) := by unfold Operand.unary; grind

/-- To prepare the first operand before the second one is compiled. -/
@[grind ←]
theorem calm_infixStart (o e) : Calm (infixStart o e) := by unfold infixStart; grind

@[grind ←]
theorem calm_finishArith (o e f c fl l) :
    Calm (finishArith o e f c fl l) := by unfold finishArith; grind

@[grind ←]
theorem calm_arithRegisters (o e f l) :
    Calm (arithRegisters o e f l) := by unfold arithRegisters; grind

@[grind ←]
theorem calm_arithConst (o e f fl c l) :
    Calm (arithConst o e f fl c l) := by unfold arithConst; grind

/-- To calculate with two operands. -/
@[grind ←]
theorem calm_arith (o e f l) : Calm (arith o e f l) := by unfold arith; grind

/-- To compare two operands. -/
@[grind ←]
theorem calm_equality (e f x) : Calm (equality e f x) := by unfold equality; grind

/-- To order two operands. -/
@[grind ←]
theorem calm_order (o m e f) : Calm (order o m e f) := by unfold order; grind

@[grind ←]
theorem calm_concatenation (e f l) :
    Calm (concatenation e f l) := by unfold concatenation; dsimp only; grind

/-- To apply an operator to two operands. -/
@[grind ←]
theorem calm_infixEnd (o e f l) : Calm (infixEnd o e f l) := by unfold infixEnd; grind

/-- To refuse a target that cannot be written. -/
@[grind ←]
theorem calm_checkAssignable (e) : Calm (checkAssignable e) := by unfold checkAssignable; grind

/-- To note a jump whose label is not known yet. -/
@[grind ←]
theorem calm_pendingJump (n l p) :
    Calm (pendingJump n l p) := calm_change fun _ => ⟨rfl, rfl, rfl, rfl, rfl⟩

/-- The jumps that wait for their labels are none of the five parts. -/
theorem calm_jumps (f : Draft → Array JumpMark) : Calm (change fun d => { d with jumps := f d }) :=
  calm_change fun _ => ⟨rfl, rfl, rfl, rfl, rfl⟩

/-- Nor are the labels. -/
theorem calm_labels (f : Draft → Array LabelMark) :
    Calm (change fun d => { d with labels := f d }) :=
  calm_change fun _ => ⟨rfl, rfl, rfl, rfl, rfl⟩

/-- A calm step for each element of an array, by the list of them. -/
theorem calm_arrayForM (l : Array α) {f : α → Gen PUnit} (each : ∀ a, Calm (f a)) :
    Calm (l.forM f) := by
  have : l.forM f = l.toList.foldlM (fun _ => f) PUnit.unit := Array.foldlM_toList.symm
  rw [this]
  induction l.toList with
  | nil => exact calm_pure _
  | cons a l ih => exact calm_bind (each a) fun _ => ih

/-- To send the jumps that wait for a label to it. -/
@[grind ←]
theorem calm_solveJumps (t) : Calm (solveJumps t) := by
  unfold solveJumps
  refine calm_bind calm_draft fun d => calm_bind (calm_arrayForM _ fun j => ?_) fun _ =>
    calm_bind (calm_jumps _) fun _ => calm_pure _
  grind

/-- To put a label into place. -/
@[grind ←]
theorem calm_makeLabel (n l la) : Calm (makeLabel n l la) := by
  unfold makeLabel
  refine calm_bind calm_label fun pc => calm_bind calm_draft fun d =>
    calm_bind (calm_labels _) fun _ => ?_
  grind

@[grind ←]
theorem calm_findLabel (n) : Calm (findLabel n) := by unfold findLabel; grind

@[grind ←]
theorem calm_setVararg : Calm setVararg := by
  unfold setVararg
  grind

/-- To bring the number of values in line with the number of variables. -/
@[grind ←]
theorem calm_adjust (v c l) : Calm (adjust v c l) := by
  have freed := fun n : Nat => calm_free fun d => d.free - n
  unfold adjust; grind

/-- To copy a table that is written while it is needed for an earlier target. -/
@[grind ←]
theorem calm_avoidConflict (t v) : Calm (avoidConflict t v) := by unfold avoidConflict; grind

@[grind ←]
theorem calm_storeTop (p) : Calm (storeTop p) := by unfold storeTop; grind

@[grind ←]
theorem calm_emitSetList (t c) : Calm (emitSetList t c) := by
  have freed := fun n : Nat => calm_free fun _ => n
  unfold emitSetList; grind

@[grind ←]
theorem calm_closeElement (t) : Calm (closeElement t) := by unfold closeElement; grind

/-- To write the last elements of a table. -/
@[grind ←]
theorem calm_closeElements (t) : Calm (closeElements t) := by unfold closeElements; grind

@[grind ←]
theorem calm_defaultStep : Calm defaultStep := by unfold defaultStep; grind

@[grind ←]
theorem calm_namePath (e l) : Calm (namePath e l) := by
  induction l generalizing e with
  | nil => exact calm_pure _
  | cons n l ih => unfold namePath; grind

/-- To jump to a label, whether it is known or not. -/
@[grind ←]
theorem calm_emitGoto (n) : Calm (emitGoto n) := by
  unfold emitGoto
  dsimp only
  exact calm_bind calm_nextLine fun line => calm_next calm_advance (by grind)

/-- To emit a call of a function with its arguments in place. -/
@[grind ←]
theorem calm_finishCall (f a l) : Calm (finishCall f a l) := by
  unfold finishCall; dsimp only; grind

@[grind ←]
theorem calm_beginTable : Calm beginTable := by unfold beginTable; grind

@[grind ←]
theorem calm_endTable (p t) : Calm (endTable p t) := by
  have := calm_closeElements
  unfold endTable; grind

/-- To go past a block unless a condition holds. -/
@[grind ←]
theorem calm_conditionJumps (v) : Calm (conditionJumps v) := by unfold conditionJumps; grind

end Gen
end NpcDialog.Lua
