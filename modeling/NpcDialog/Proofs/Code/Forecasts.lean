import NpcDialog.Proofs.Code.Calm

/-!
# What is known of operands

An operand of the compiler is a value that is known, or one that is found in a
register, maybe behind jumps.  Where the tree tells of a value, the operand is that
value, and where it tells nothing, the operand is none that is known.

* `Gen.Gives` — a step all of whose results have a property.
* `Operand.gives_unary`, `Operand.gives_infixEnd` — what operators make of operands.
-/

namespace NpcDialog.Lua

namespace Gen

variable {α β : Type}

/-- Has every result of a step a property? -/
def Gives (a : Gen α) (Q : α → Prop) : Prop := ∀ b v b', a b = .ok (v, b') → Q v

variable {Q : α → Prop} {R : β → Prop}

/-- A step that does nothing has the result that it says. -/
theorem gives_pure {v : α} (h : Q v) : Gives (pure v) Q := by
  rintro b _ _ ⟨⟩
  exact h

/-- What the last of two steps gives both give, whatever the first one was. -/
theorem gives_bind {x : Gen α} {f : α → Gen β} (next : ∀ v, Gives (f v) R) : Gives (x >>= f) R := by
  intro b w b'' run
  obtain ⟨v, b', -, goes⟩ := bind_ok run
  exact next _ _ _ _ goes

/-- A step that does nothing can be left out. -/
theorem gives_pure_bind {v : α} {f : α → Gen β} (next : Gives (f v) R) :
    Gives (pure v >>= f) R := by
  intro b w b'' run
  obtain ⟨_, _, ⟨⟩, goes⟩ := bind_ok run
  exact next _ _ _ goes

/-- What is known of the first result may be needed for the second one. -/
theorem gives_then {x : Gen α} {f : α → Gen β} (first : Gives x Q)
    (next : ∀ v, Q v → Gives (f v) R) :
    Gives (x >>= f) R := by
  intro b w b'' run
  obtain ⟨v, b', ran, goes⟩ := bind_ok run
  exact next _ (first _ _ _ ran) _ _ _ goes

/-- A weaker property. -/
theorem gives_imp {x : Gen α} {P : α → Prop} (first : Gives x Q) (imp : ∀ v, Q v → P v) :
    Gives x P :=
  fun b v b' run => imp v (first b v b' run)

end Gen

namespace Operand

open Gen

/-- Is an operand a register that no jump leads past? -/
def IsRegister (v : Operand) : Prop := ∃ r, v = plain (.fixed r)

/-- A register tells nothing of its value. -/
theorem IsRegister.meets {v : Operand} (h : IsRegister v) : v.Meets .unknown := by
  obtain ⟨r, rfl⟩ := h
  exact ⟨rfl, rfl, rfl, rfl⟩

/-- A value that is read into a register is in that register, and no jump leads past it.
-/
theorem gives_into (e r) : Gives (into e r) IsRegister := by
  unfold into
  dsimp only
  repeat' first
    | with_reducible refine gives_bind fun _ => ?_
    | split
  all_goals exact gives_pure ⟨r, rfl⟩

theorem gives_toNext (e) : Gives (toNext e) IsRegister := by
  unfold toNext
  exact gives_bind fun _ => gives_bind fun _ => gives_bind fun _ => gives_bind fun _ =>
    gives_into _ _

/-- A value that is read into some register is in one.  Where it is in one already, the
operand stays, unless jumps lead past it. -/
theorem gives_toAny (e) : Gives (toAny e) IsRegister := by
  unfold toAny
  refine gives_bind fun v => ?_
  split
  · next r kind =>
    split
    · next plain_ =>
      refine gives_pure ⟨r, ?_⟩
      obtain ⟨k, l, l'⟩ := v
      simp only [hasJumps, Bool.not_not, Bool.and_eq_true, List.isEmpty_iff] at plain_
      obtain ⟨rfl, rfl⟩ := plain_
      simp only at kind
      rw [kind, plain]
    · refine gives_bind fun l => ?_
      split
      · exact gives_into _ _
      · exact gives_toNext _
  · exact gives_toNext _

theorem gives_anyRegister (e) : Gives (anyRegister e) fun p => IsRegister p.1 := by
  unfold anyRegister
  exact gives_then (gives_toAny e) fun v is => gives_pure is

/-- What follows is known for every register that the value may be in. -/
theorem gives_register {β : Type} {R : β → Prop} {e : Operand} {f : Operand × Nat → Gen β}
    (next : ∀ r s, Gives (f (plain (.fixed r), s)) R) : Gives (anyRegister e >>= f) R := by
  refine gives_then (gives_anyRegister e) ?_
  rintro ⟨v, s⟩ ⟨r, is⟩
  obtain rfl : v = plain (.fixed r) := is
  exact next r s

/-- Is an operand a table whose fields can be named? -/
def IsPlace (v : Operand) : Prop := IsRegister v ∨ ∃ u, v = plain (.captured u)

/-- A table whose fields are named is in a register or is a captured variable. -/
theorem gives_toAnyOrCaptured (e) : Gives (toAnyOrCaptured e) IsPlace := by
  unfold toAnyOrCaptured
  split
  · next u kind =>
    split
    · exact gives_imp (gives_toAny e) fun _ => .inl
    · next plain_ =>
      refine gives_pure (.inr ⟨u, ?_⟩)
      obtain ⟨k, l, l'⟩ := e
      simp only [hasJumps, Bool.not_eq_true', Bool.not_eq_false, Bool.and_eq_true,
        List.isEmpty_iff] at plain_
      obtain ⟨rfl, rfl⟩ := plain_
      simp only at kind
      rw [kind, plain]
  · exact gives_imp (gives_toAny e) fun _ => .inl

/-- Nothing is known of the value of a field. -/
theorem gives_index {t : Operand} (place : IsPlace t) (key) :
    Gives (index t key) fun v => v.Meets .unknown := by
  unfold index
  dsimp only
  rcases place with ⟨r, rfl⟩ | ⟨u, rfl⟩
  all_goals
    repeat' first
      | with_reducible refine gives_register fun _ _ => ?_
      | with_reducible refine gives_bind fun _ => ?_
      | split
    all_goals exact gives_pure ⟨rfl, rfl, rfl, rfl⟩

/-! ## Reading a value -/

variable {v w : Operand} {f g : Forecast}

/-- A name for a constant stands for the same literal as the constant itself. -/
theorem literal?_ofConst (c : Const) (name : Bytes) :
    (Kind.ofConst c).literal? = (Kind.compileTime c name).literal? ∧ (Kind.ofConst c).isDirect = Bool.true := by
  cases c with
  | bool b => cases b <;> exact ⟨rfl, rfl⟩
  | _ => exact ⟨rfl, rfl⟩

/-- What holds of an operand that was read holds of it before. -/
theorem Meets.foretold (h : v.Meets f) : v.Foretold f :=
  ⟨h.literal, fun k same => (by have := h.direct; rw [same] at this; cases this), h.whenTrue, h.whenFalse⟩

/-- To read a value does not change what is known of it.  The cases are the kinds of
operands, in the order in which they are tried. -/
theorem gives_discharge (h : v.Foretold f) : Gives (discharge v) (Meets · f) := by
  obtain ⟨literal, noConst, whenTrue, whenFalse⟩ := h
  unfold discharge
  split
  · next c name kind =>
    rw [kind] at literal
    obtain ⟨same, direct⟩ := literal?_ofConst c name
    exact gives_pure ⟨same.trans literal, direct, whenTrue, whenFalse⟩
  · next kind => rw [kind] at literal; exact gives_pure ⟨literal, rfl, whenTrue, whenFalse⟩
  · next kind => rw [kind] at literal; exact gives_bind fun _ => gives_pure ⟨literal, rfl, whenTrue, whenFalse⟩
  · next kind => rw [kind] at literal; exact gives_bind fun _ => gives_pure ⟨literal, rfl, whenTrue, whenFalse⟩
  · next kind =>
    rw [kind] at literal
    exact gives_bind fun _ => gives_bind fun _ => gives_pure ⟨literal, rfl, whenTrue, whenFalse⟩
  · next kind =>
    rw [kind] at literal
    exact gives_bind fun _ => gives_bind fun _ => gives_pure ⟨literal, rfl, whenTrue, whenFalse⟩
  · next kind =>
    rw [kind] at literal
    exact gives_bind fun _ => gives_bind fun _ => gives_pure ⟨literal, rfl, whenTrue, whenFalse⟩
  · next pc kind =>
    rw [kind] at literal
    unfold single
    rw [kind]
    refine gives_bind fun i => ?_
    split
    · exact gives_pure ⟨literal, rfl, whenTrue, whenFalse⟩
    · exact gives_pure ⟨by rw [kind]; exact literal, by rw [kind]; rfl, whenTrue, whenFalse⟩
  · next pc kind =>
    rw [kind] at literal
    unfold single
    rw [kind]
    exact gives_bind fun _ => gives_pure ⟨literal, rfl, whenTrue, whenFalse⟩
  · next other _ _ _ _ _ _ _ _ =>
    refine gives_pure ⟨literal, ?_, whenTrue, whenFalse⟩
    cases kind : v.kind with
    | compileTime c name => exact (other c name kind).elim
    | const k => exact absurd kind (noConst k)
    | _ => rfl

/-- An operand is a known number just where the tree tells one. -/
theorem Meets.number? (h : v.Meets f) : v.number? = f.number? := by
  obtain ⟨literal, direct, whenTrue, whenFalse⟩ := h
  rw [Operand.number?, hasJumps, whenTrue, whenFalse, Forecast.number?, Forecast.literal?,
    ← literal]
  clear literal whenTrue whenFalse
  cases f.endsTrue <;> cases f.endsFalse <;> simp
  cases kind : v.kind <;> simp_all [Kind.literal?, Literal.number?, Kind.isDirect]

/-- An operand is a known constant just where the tree tells one. -/
theorem Meets.const? (h : v.Meets f) : v.const? = f.literal?.map Literal.const := by
  obtain ⟨literal, direct, whenTrue, whenFalse⟩ := h
  rw [Operand.const?, hasJumps, whenTrue, whenFalse, Forecast.literal?, ← literal]
  clear literal whenTrue whenFalse
  cases f.endsTrue <;> cases f.endsFalse <;> simp
  cases kind : v.kind <;> simp_all [Kind.literal?, Literal.const, Kind.isDirect]

/-- A number is known. -/
theorem meets_number (n : Number) :
    (plain (.number n)).Meets (.sure (.number n)) := ⟨rfl, rfl, rfl, rfl⟩

/-! ## Operators -/

/-- The negation of a value is known where the value is. -/
theorem gives_negation (h : v.Meets f) : Gives (negation v) (Meets · f.negation) := by
  obtain ⟨literal, direct, whenTrue, whenFalse⟩ := h
  unfold negation
  dsimp only
  repeat' first
    | with_reducible refine gives_pure_bind ?_
    | with_reducible refine gives_bind fun _ => ?_
    | split
  all_goals
    refine gives_pure ⟨?_, rfl, whenFalse, whenTrue⟩
    rw [Forecast.negation, ← literal]
    clear literal whenTrue whenFalse
    cases kind : v.kind <;> simp_all [Kind.literal?, Kind.isDirect, Literal.isTrue]

/-- An operator is applied at once just where the tree says so. -/
theorem gives_unary (op line) (h : v.Foretold f) :
    Gives (Operand.unary op v line) (Meets · (f.unary op)) := by
  unfold Operand.unary
  refine gives_then (gives_discharge h) fun w meets => ?_
  split
  · exact gives_negation meets
  · next other =>
    have known : f.unary op = .ofNumber? (w.number?.bind (foldUnary? op)) := by
      rw [meets.number?]
      cases op with
      | not => exact absurd rfl other
      | _ => rfl
    rw [known]
    split
    · next n folded => rw [folded]; exact gives_pure (meets_number n)
    · next unfolded =>
      rw [unfolded]
      refine gives_register fun r s => gives_bind fun _ => gives_bind fun _ => gives_bind fun _ => ?_
      exact gives_pure ⟨rfl, rfl, rfl, rfl⟩

/-- What is known of the first operand when the second one is compiled. -/
def Started (op : BinaryOperator) (f : Forecast) (v : Operand) : Prop :=
  match op with
  | .and => v.whenTrue = [] ∧ v.whenFalse.isEmpty = !(f.endsFalse || !f.value.any Literal.isTrue)
  | .or => v.whenFalse = [] ∧ v.whenTrue.isEmpty = !(f.endsTrue || !f.value.any Literal.isFalse)
  | .arith _ => v.number? = f.number?
  | .concat => IsRegister v
  | _ => True

/-- Where a value is known to be true, no jump is needed to go on there. -/
theorem gives_goIfTrue (h : v.Foretold f) : Gives (goIfTrue v) (Started .and f) := by
  unfold goIfTrue
  refine gives_then (gives_discharge h) fun w meets => ?_
  obtain ⟨literal, direct, whenTrue, whenFalse⟩ := meets
  dsimp only
  repeat' first
    | with_reducible refine gives_pure_bind ?_
    | with_reducible refine gives_bind fun _ => ?_
    | split
  all_goals
    refine gives_pure ⟨rfl, ?_⟩
    rw [← literal]
    clear literal
    cases kind : w.kind <;> simp_all [Kind.literal?, Kind.isDirect, Literal.isTrue]

/-- Where a value is known to be false, no jump is needed to go on there. -/
theorem gives_goIfFalse (h : v.Foretold f) : Gives (goIfFalse v) (Started .or f) := by
  unfold goIfFalse
  refine gives_then (gives_discharge h) fun w meets => ?_
  obtain ⟨literal, direct, whenTrue, whenFalse⟩ := meets
  dsimp only
  repeat' first
    | with_reducible refine gives_pure_bind ?_
    | with_reducible refine gives_bind fun _ => ?_
    | split
  all_goals
    refine gives_pure ⟨rfl, ?_⟩
    rw [← literal]
    clear literal
    cases kind : w.kind <;> simp_all [Kind.literal?, Kind.isDirect, Literal.isTrue, Literal.isFalse]

/-- The first operand is prepared as its operator needs it. -/
theorem gives_infixStart (op) (h : v.Foretold f) : Gives (infixStart op v) (Started op f) := by
  unfold infixStart
  refine gives_then (gives_discharge h) fun w meets => ?_
  split
  · exact gives_goIfTrue meets.foretold
  · exact gives_goIfFalse meets.foretold
  · exact gives_toNext w
  · split
    · exact gives_pure meets.number?
    · next none_ =>
      refine gives_imp (gives_toAny w) ?_
      rintro u ⟨r, rfl⟩
      have unknown : f.number? = none := by
        rw [← meets.number?]
        simpa using none_
      exact unknown.symm
  all_goals exact fun _ _ _ _ => trivial

/-- The result of a calculation that is left to the machine is not known. -/
theorem gives_finishArith (op e f c flipped line) :
    Gives (finishArith op e f c flipped line) (Meets · .unknown) := by
  unfold finishArith
  refine gives_register fun r s => gives_bind fun _ => gives_bind fun _ => gives_bind fun _ => ?_
  exact gives_pure ⟨rfl, rfl, rfl, rfl⟩

theorem gives_arithRegisters (op e f line) :
    Gives (arithRegisters op e f line) (Meets · .unknown) := by
  unfold arithRegisters
  exact gives_register fun r s => gives_finishArith _ _ _ _ _ _

theorem gives_arithConst (op e f flipped constant line) :
    Gives (arithConst op e f flipped constant line) (Meets · .unknown) := by
  unfold arithConst
  dsimp only
  repeat' first
    | with_reducible exact gives_arithRegisters ..
    | with_reducible exact gives_finishArith ..
    | with_reducible refine gives_bind fun _ => ?_
    | split

theorem gives_arith (op e f line) : Gives (arith op e f line) (Meets · .unknown) := by
  unfold arith
  dsimp only
  repeat' first
    | with_reducible exact gives_arithRegisters ..
    | with_reducible exact gives_finishArith ..
    | with_reducible exact gives_arithConst ..
    | split

theorem gives_equality (e f expected) : Gives (equality e f expected) (Meets · .unknown) := by
  unfold equality
  dsimp only
  repeat' first
    | with_reducible refine gives_register fun _ _ => ?_
    | with_reducible refine gives_bind fun _ => ?_
    | split
  all_goals exact gives_pure ⟨rfl, rfl, rfl, rfl⟩

theorem gives_order (op mirrored e f) : Gives (order op mirrored e f) (Meets · .unknown) := by
  unfold order
  dsimp only
  repeat' first
    | with_reducible refine gives_bind fun _ => ?_
    | split
  all_goals exact gives_pure ⟨rfl, rfl, rfl, rfl⟩

/-- Texts are joined by the machine, so the result is not known. -/
theorem gives_concatenation {e : Operand} (register : IsRegister e) (f line) :
    Gives (concatenation e f line) (Meets · .unknown) := by
  unfold concatenation
  dsimp only
  repeat' first
    | with_reducible refine gives_bind fun _ => ?_
    | split
  all_goals exact gives_pure register.meets

/-- What is known of the result of an operator is what the tree tells of its operands. 
The cases are the operators. -/
theorem gives_infixEnd (op line) (started : Started op f v) (h : w.Foretold g) :
    Gives (infixEnd op v w line) (Meets · (f.binary op g)) := by
  unfold infixEnd
  refine gives_then (gives_discharge h) fun u meets => ?_
  obtain ⟨literal, direct, whenTrue, whenFalse⟩ := id meets
  split
  · obtain ⟨-, left⟩ := started
    refine gives_pure ⟨literal, direct, whenTrue, ?_⟩
    have joined : (v.whenFalse ++ u.whenFalse).isEmpty = (v.whenFalse.isEmpty && u.whenFalse.isEmpty) := by
      cases v.whenFalse <;> rfl
    rw [joined, left, whenFalse]
    simp [Forecast.binary, Forecast.and]
  · obtain ⟨-, left⟩ := started
    refine gives_pure ⟨literal, direct, ?_, whenFalse⟩
    have joined : (v.whenTrue ++ u.whenTrue).isEmpty = (v.whenTrue.isEmpty && u.whenTrue.isEmpty) := by
      cases v.whenTrue <;> rfl
    rw [joined, left, whenTrue]
    simp [Forecast.binary, Forecast.or]
  · exact gives_concatenation started _ _
  · exact gives_equality _ _ _
  · exact gives_equality _ _ _
  · exact gives_order _ _ _ _
  · exact gives_order _ _ _ _
  · exact gives_order _ _ _ _
  · exact gives_order _ _ _ _
  · next op =>
    have known : f.binary (.arith op) g =
        .ofNumber? (v.number?.bind fun a => u.number?.bind fun b => fold? op a b) := by
      rw [meets.number?, show v.number? = f.number? from started]
      rfl
    rw [known]
    dsimp only
    split
    · next n folded =>
      have folded : (v.number?.bind fun a => u.number?.bind fun b => fold? op a b) = some n := folded
      rw [folded]
      exact gives_pure (meets_number n)
    · next folded =>
      have folded : (v.number?.bind fun a => u.number?.bind fun b => fold? op a b) = none := folded
      rw [folded]
      exact gives_arith _ _ _ _

end Operand
end NpcDialog.Lua
