import NpcDialog.Lua.Code.Draft

/-!
# Operands

While an expression is compiled its value stays undetermined as long as
possible: a constant may still be folded, a variable may be assigned to, a
comparison may become a jump.  An `Operand` says what is known so far, and the
functions here move it on to where it is needed.

* `Operand` — what is known of a value, with the jumps that leave its
  evaluation early.
* `Operand.toNext`, `Operand.toAny`, `Operand.toConstOr` — force a value into
  the next register, some register, or a constant.
* `Operand.store` — an assignment.
* `Operand.index`, `Operand.unary`, `Operand.infixStart`, `Operand.infixEnd` —
  the ways to build a value from others.
-/

namespace NpcDialog.Lua

open Bytes (ofText)

/-- Where a value is, as far as that has been decided. -/
inductive Operand.Kind where
  /-- Nowhere: the empty list of expressions. -/
  | void
  /-- The value of absence. -/
  | nil
  /-- Truth. -/
  | true
  /-- Falsehood. -/
  | false
  /-- A constant of the function. -/
  | const (k : Nat)
  /-- A literal number. -/
  | number (n : Number)
  /-- A literal string. -/
  | str (s : Bytes)
  /-- A register. -/
  | fixed (r : Nat)
  /-- A local variable: its register and its index among the variables. -/
  | variable (r index : Nat)
  /-- A captured variable. -/
  | captured (u : Nat)
  /-- A name for a constant. -/
  | compileTime (value : Const) (name : Bytes)
  /-- A field by a register. -/
  | indexed (t key : Nat)
  /-- A named field of a captured table. -/
  | capturedField (u k : Nat)
  /-- A field by a small integer. -/
  | indexedInt (t i : Nat)
  /-- A named field. -/
  | indexedName (t k : Nat)
  /-- The outcome of the comparison in front of a jump. -/
  | jump (pc : Nat)
  /-- The result of an instruction that has no register yet. -/
  | pending (pc : Nat)
  /-- The results of a call. -/
  | call (pc : Nat)
  /-- The extra arguments. -/
  | vararg (pc : Nat)

/-- What is known of a value: where it is, and the jumps that leave its
evaluation early because it is true or because it is false. -/
structure Operand where
  /-- Where the value is. -/
  kind : Operand.Kind
  /-- Jumps taken when the value is true. -/
  whenTrue : List Nat
  /-- Jumps taken when the value is false. -/
  whenFalse : List Nat

namespace Operand

/-- An operand that no jump leaves. -/
def plain (k : Kind) : Operand := ⟨k, [], []⟩

/-- Is the evaluation left by jumps? -/
def hasJumps (e : Operand) : Bool := !(e.whenTrue.isEmpty && e.whenFalse.isEmpty)

/-- Can the value be several values? -/
def isMulti (e : Operand) : Bool :=
  match e.kind with
  | .call _ | .vararg _ => true
  | _ => false

/-- The number that a literal operand is. -/
def number? (e : Operand) : Option Number :=
  if e.hasJumps then none
  else
    match e.kind with
    | .number n => some n
    | _ => none

/-- The constant that an operand is. -/
def const? (e : Operand) : Option Const :=
  if e.hasJumps then none
  else
    match e.kind with
    | .nil => some .nil
    | .true => some (.bool Bool.true)
    | .false => some (.bool Bool.false)
    | .number n => some (.ofNumber n)
    | .str s => some (.str s)
    | .compileTime c _ => some c
    | _ => none

/-- The literal that a constant is. -/
def Kind.ofConst : Const → Kind
  | .nil => .nil
  | .bool Bool.true => .true
  | .bool Bool.false => .false
  | .int n => .number (.int n)
  | .float bits => .number (.float (Float.ofBits bits))
  | .str s => .str s

/-- The greatest index of a constant that an instruction can name as its second
operand. -/
def maxConst : Nat := 255

/-- The integers an instruction can hold as its second operand. -/
def fitsOperand (i : Int) : Bool := -127 ≤ i && i ≤ 128

/-- The integers an instruction can load. -/
def fitsLoad (i : Int) : Bool := -65535 ≤ i && i ≤ 65536

end Operand

/-- The instruction with another target register. -/
def Instr.withTarget (a : Nat) : Instr → Instr
  | .move _ b => .move a b
  | .getCaptured _ u => .getCaptured a u
  | .getCapturedField _ u k => .getCapturedField a u k
  | .getIndex _ b c => .getIndex a b c
  | .getInt _ b i => .getInt a b i
  | .getField _ b k => .getField a b k
  | .arith op _ b c flipped => .arith op a b c flipped
  | .negate _ b => .negate a b
  | .complement _ b => .complement a b
  | .not _ b => .not a b
  | .length _ b => .length a b
  | .concat _ n => .concat a n
  | .closure _ k => .closure a k
  | .vararg _ count => .vararg a count
  | i => i

/-- The jump instruction with another target. -/
def Instr.withDestination (target : Nat) : Instr → Instr
  | .jump _ => .jump target
  | .forLoop a _ => .forLoop a target
  | .forPrep a _ => .forPrep a target
  | .iterPrep a _ => .iterPrep a target
  | .iterLoop a _ => .iterLoop a target
  | i => i

/-- The test with its outcome exchanged. -/
def Instr.negated : Instr → Instr
  | .compare op a b k => .compare op a b (!k)
  | .test a k => .test a (!k)
  | .testSet a b k => .testSet a b (!k)
  | i => i

/-- Does the instruction decide whether the next one is skipped? -/
def Instr.isTest : Instr → Bool
  | .compare _ _ _ _ | .test _ _ | .testSet _ _ _ => true
  | _ => false

namespace Operand

open Gen

/-- The register a pending `testSet` has before it is decided. -/
def noRegister : Nat := 255

/-! ## Jumps -/

/-- A jump whose target is set later. -/
def emitJump : Gen Nat := emit (.jump 0)

/-- The position of the test in front of a jump, or of the jump itself. -/
def controlOf (pc : Nat) : Gen Nat := do
  let d ← draft
  match d.code[pc - 1]? with
  | some i => return if 1 ≤ pc && i.isTest then pc - 1 else pc
  | none => return pc

/-- Decides the register of the test in front of a jump.  The answer tells
whether the jump carries a value. -/
def patchTest (pc : Nat) (register : Option Nat) : Gen Bool := do
  let at_ ← controlOf pc
  match ← instrAt at_ with
  | some (.testSet _ b k) =>
    match register with
    | some r =>
      if r == b then patch at_ fun _ => .test b k
      else patch at_ fun _ => .testSet r b k
    | none => patch at_ fun _ => .test b k
    return Bool.true
  | _ => return Bool.false

/-- Sets the target of a jump. -/
def fixJump (pc target : Nat) : Gen Unit := patch pc (Instr.withDestination target)

/-- Sets the targets of jumps: those that carry a value into `register` lead to
`target`, the others to `fallback`. -/
def patchBoth (jumps : List Nat) (target : Nat) (register : Option Nat) (fallback : Nat) : Gen Unit :=
  jumps.forM fun pc => do
    if ← patchTest pc register then fixJump pc target else fixJump pc fallback

/-- Sets the targets of jumps. -/
def patchTo (jumps : List Nat) (target : Nat) : Gen Unit := patchBoth jumps target none target

/-- Lets jumps lead to the next instruction. -/
def patchHere (jumps : List Nat) : Gen Unit := do
  patchTo jumps (← label)

/-- Do some of the jumps not carry a value? -/
def needValue : List Nat → Gen Bool
  | [] => return Bool.false
  | pc :: rest => do
    match ← instrAt (← controlOf pc) with
    | some (.testSet _ _ _) => needValue rest
    | _ => return Bool.true

/-! ## Into registers -/

/-- Clears `n` registers from `start` on, together with those that the last
instruction cleared if they touch. -/
def emitNil (start n : Nat) : Gen Unit := do
  let last := start + n - 1
  match ← previous with
  | some (.loadNil a b) =>
    if (a ≤ start && start ≤ b + 1) || (start ≤ a && a ≤ last + 1) then
      let pc ← here
      patch (pc - 1) fun _ => .loadNil (min a start) (max b last)
    else discard (emit (.loadNil start last))
  | _ => discard (emit (.loadNil start last))

/-- Loads a number into a register. -/
def emitNumber (r : Nat) (n : Number) : Gen Unit := do
  let viaConst : Gen Unit := do
    let k ← constant (.ofNumber n)
    discard (emit (.loadConst r k))
  match n with
  | .int i => if fitsLoad i.toInt then discard (emit (.loadInt r i.toInt)) else viaConst
  | .float x =>
    match Binary64.toInt64? x .exact with
    | some i =>
      if fitsLoad i.toInt then discard (emit (.loadFloat r i.toInt))
      else viaConst
    | none => viaConst

/-- Reduces several values to one. -/
def single (e : Operand) : Gen Operand := do
  match e.kind with
  | .call pc =>
    match ← instrAt pc with
    | some (.call a _ _) => return { e with kind := .fixed a }
    | _ => return e
  | .vararg pc =>
    patch pc fun _ => .vararg 0 (some 1)
    return { e with kind := .pending pc }
  | _ => return e

/-- Reads a variable or a field. -/
def discharge (e : Operand) : Gen Operand := do
  match e.kind with
  | .compileTime c _ => return { e with kind := Kind.ofConst c }
  | .variable r _ => return { e with kind := .fixed r }
  | .captured u => return { e with kind := .pending (← emit (.getCaptured 0 u)) }
  | .capturedField u k => return { e with kind := .pending (← emit (.getCapturedField 0 u k)) }
  | .indexedInt t i =>
    release t
    return { e with kind := .pending (← emit (.getInt 0 t i)) }
  | .indexedName t k =>
    release t
    return { e with kind := .pending (← emit (.getField 0 t k)) }
  | .indexed t key =>
    releaseBoth (some t) (some key)
    return { e with kind := .pending (← emit (.getIndex 0 t key)) }
  | .call _ | .vararg _ => single e
  | _ => return e

/-- Puts a value into a register, the jumps of its evaluation left aside. -/
def dischargeTo (e : Operand) (r : Nat) : Gen Operand := do
  let e ← discharge e
  let done : Operand := { e with kind := .fixed r }
  match e.kind with
  | .nil =>
    emitNil r 1
    return done
  | .false =>
    discard (emit (.loadFalse r))
    return done
  | .true =>
    discard (emit (.loadTrue r))
    return done
  | .str s =>
    let k ← constant (.str s)
    discard (emit (.loadConst r k))
    return done
  | .const k =>
    discard (emit (.loadConst r k))
    return done
  | .number n =>
    emitNumber r n
    return done
  | .pending pc =>
    patch pc (Instr.withTarget r)
    return done
  | .fixed s =>
    if s != r then discard (emit (.move r s))
    return done
  | _ => return e

/-- Puts a value into some register, the jumps of its evaluation left aside. -/
def dischargeAny (e : Operand) : Gen Operand := do
  match e.kind with
  | .fixed _ => return e
  | _ =>
    reserve 1
    dischargeTo e ((← draft).free - 1)

/-- Gives the register of an operand back. -/
def free (e : Operand) : Gen Unit := do
  match e.kind with
  | .fixed r => release r
  | _ => return ()

/-- The register of an operand. -/
def register? (e : Operand) : Option Nat :=
  match e.kind with
  | .fixed r => some r
  | _ => none

/-- Gives the registers of two operands back. -/
def freeBoth (e f : Operand) : Gen Unit := releaseBoth e.register? f.register?

/-- Puts a value into a register, together with what the jumps of its
evaluation leave there. -/
def into (e : Operand) (r : Nat) : Gen Operand := do
  let e ← dischargeTo e r
  let e :=
    match e.kind with
    | .jump pc => { e with whenTrue := e.whenTrue ++ [pc] }
    | _ => e
  if e.hasJumps then
    let mut falseAt := 0
    let mut trueAt := 0
    if (← needValue e.whenTrue) || (← needValue e.whenFalse) then
      let skipping ←
        match e.kind with
        | .jump _ => pure []
        | _ => do pure [← emitJump]
      discard label
      falseAt ← emit (.loadFalseSkip r)
      discard label
      trueAt ← emit (.loadTrue r)
      patchHere skipping
    let final ← label
    patchBoth e.whenFalse final (some r) falseAt
    patchBoth e.whenTrue final (some r) trueAt
  return plain (.fixed r)

/-- Puts a value into the next register. -/
def toNext (e : Operand) : Gen Operand := do
  let e ← discharge e
  free e
  reserve 1
  into e ((← draft).free - 1)

/-- Puts a value into some register. -/
def toAny (e : Operand) : Gen Operand := do
  let e ← discharge e
  match e.kind with
  | .fixed r =>
    if !e.hasJumps then return e
    else if (← variableLevel) ≤ r then into e r
    else toNext e
  | _ => toNext e

/-- The register of a value, which is put into one if necessary. -/
def anyRegister (e : Operand) : Gen (Operand × Nat) := do
  let e ← toAny e
  return (e, e.register?.getD 0)

/-- Puts a value into some register unless it is a captured variable. -/
def toAnyOrCaptured (e : Operand) : Gen Operand := do
  match e.kind with
  | .captured _ => if e.hasJumps then toAny e else return e
  | _ => toAny e

/-- Determines a value, in a register if jumps leave its evaluation. -/
def toValue (e : Operand) : Gen Operand := do
  let isJump :=
    match e.kind with
    | .jump _ => Bool.true
    | _ => Bool.false
  if isJump || e.hasJumps then toAny e else discharge e

/-- Turns a literal into a constant that an instruction can name. -/
def toConst? (e : Operand) : Gen (Option (Operand × Nat)) := do
  if e.hasJumps then return none
  let k ←
    match e.kind with
    | .true => some <$> constant (.bool Bool.true)
    | .false => some <$> constant (.bool Bool.false)
    | .nil => some <$> constant .nil
    | .number n => some <$> constant (.ofNumber n)
    | .str s => some <$> constant (.str s)
    | .const k => pure (some k)
    | _ => pure none
  match k with
  | some k => return if k ≤ maxConst then some (plain (.const k), k) else none
  | none => return none

/-- Turns a value into a constant or puts it into some register. -/
def toConstOr (e : Operand) : Gen (Operand × Source) := do
  match ← toConst? e with
  | some (e, k) => return (e, .const k)
  | none =>
    let (e, r) ← anyRegister e
    return (e, .reg r)

/-- Fixes the number of values of a call or of the extra arguments. -/
def setResults (e : Operand) (count : Option Nat) : Gen Unit := do
  match e.kind with
  | .call pc =>
    patch pc fun i =>
      match i with
      | .call a args _ => .call a args count
      | i => i
  | .vararg pc =>
    let r := (← draft).free
    patch pc fun _ => .vararg r count
    reserve 1
  | _ => return ()

/-! ## Assignment -/

/-- Stores a value in a variable or a field. -/
def store (place value : Operand) : Gen Unit := do
  match place.kind with
  | .variable r _ =>
    free value
    discard (into value r)
  | .captured u =>
    let (value, r) ← anyRegister value
    discard (emit (.setCaptured r u))
    free value
  | .capturedField u k =>
    let (value, src) ← toConstOr value
    discard (emit (.setCapturedField u k src))
    free value
  | .indexedInt t i =>
    let (value, src) ← toConstOr value
    discard (emit (.setInt t i src))
    free value
  | .indexedName t k =>
    let (value, src) ← toConstOr value
    discard (emit (.setField t k src))
    free value
  | .indexed t key =>
    let (value, src) ← toConstOr value
    discard (emit (.setIndex t key src))
    free value
  | _ => free value

/-! ## Fields -/

/-- Is the constant a string short enough to be the name of a field? -/
def isNameConst (k : Nat) : Gen Bool := do
  match ← constAt k with
  | some (.str s) => return k ≤ maxConst && s.size ≤ 40
  | _ => return Bool.false

/-- The field of a table, which is in a register or captured. -/
def index (t key : Operand) : Gen Operand := do
  let key ←
    match key.kind with
    | .str s => do
      let k ← constant (.str s)
      pure { key with kind := Kind.const k }
    | _ => pure key
  let name ←
    match key.kind with
    | .const k => do
      if !key.hasJumps && (← isNameConst k) then pure (some k) else pure none
    | _ => pure none
  let inRegister (t : Operand) (r : Nat) : Gen Operand := do
    match name, key.kind with
    | some k, _ => return { t with kind := .indexedName r k }
    | none, .number (.int i) =>
      if !key.hasJumps && 0 ≤ i && i ≤ 255 then
        return { t with kind := .indexedInt r i.toInt.toNat }
      else
        let (_, s) ← anyRegister key
        return { t with kind := .indexed r s }
    | none, _ =>
      let (_, s) ← anyRegister key
      return { t with kind := .indexed r s }
  match t.kind, name with
  | .captured u, some k => return { t with kind := .capturedField u k }
  | .captured _, none =>
    let (t, r) ← anyRegister t
    inRegister t r
  | .variable r _, _ => inRegister t r
  | .fixed r, _ => inRegister t r
  | _, _ => return t

/-- A method of an object and the object itself, in two new registers. -/
def self (e key : Operand) : Gen Operand := do
  let (e, r) ← anyRegister e
  free e
  let base := (← draft).free
  reserve 2
  let (key, src) ← toConstOr key
  discard (emit (.self base r src))
  free key
  return plain (.fixed base)

/-! ## Conditions -/

/-- A test followed by its jump. -/
def emitTest (i : Instr) : Gen Nat := do
  discard (emit i)
  emitJump

/-- A jump that is taken if the truth of a value is `cond`. -/
def jumpOn (e : Operand) (cond : Bool) : Gen Nat := do
  let viaRegister : Gen Nat := do
    let e ← dischargeAny e
    free e
    emitTest (.testSet noRegister (e.register?.getD 0) cond)
  match e.kind with
  | .pending pc =>
    match ← instrAt pc with
    | some (.not _ b) =>
      removeLast
      emitTest (.test b (!cond))
    | _ => viaRegister
  | _ => viaRegister

/-- Goes on with the next instruction if the value is true. -/
def goIfTrue (e : Operand) : Gen Operand := do
  let e ← discharge e
  let jumps ←
    match e.kind with
    | .jump pc => do
      patch (← controlOf pc) Instr.negated
      pure [pc]
    | .const _ | .number _ | .str _ | .true => pure []
    | _ => do pure [← jumpOn e Bool.false]
  patchHere e.whenTrue
  return { e with whenTrue := [], whenFalse := e.whenFalse ++ jumps }

/-- Goes on with the next instruction if the value is false. -/
def goIfFalse (e : Operand) : Gen Operand := do
  let e ← discharge e
  let jumps ←
    match e.kind with
    | .jump pc => pure [pc]
    | .nil | .false => pure []
    | _ => do pure [← jumpOn e Bool.true]
  patchHere e.whenFalse
  return { e with whenFalse := [], whenTrue := e.whenTrue ++ jumps }

/-- The logical negation of a value. -/
def negation (e : Operand) : Gen Operand := do
  let kind ←
    match e.kind with
    | .nil | .false => pure Kind.true
    | .const _ | .number _ | .str _ | .true => pure Kind.false
    | .jump pc => do
      patch (← controlOf pc) Instr.negated
      pure (Kind.jump pc)
    | _ => do
      let e ← dischargeAny e
      free e
      let pc ← emit (.not 0 (e.register?.getD 0))
      pure (Kind.pending pc)
  e.whenTrue.forM fun pc => discard (patchTest pc none)
  e.whenFalse.forM fun pc => discard (patchTest pc none)
  return ⟨kind, e.whenFalse, e.whenTrue⟩

/-! ## Operators with one operand -/

/-- The value of an operator on literal numbers, where it may be worked out
early: a division by zero, a value that is no number and a float zero are left
to the run. -/
def fold? (op : Operator) (a b : Number) : Option Number :=
  let divides := op == .div || op == .idiv || op == .mod
  if divides && b.toFloat == 0.0 then none
  else
    match Number.apply op a b with
    | .ok (.int n) => some (.int n)
    | .ok (.float x) => if x != x || x == 0.0 then none else some (.float x)
    | .error _ => none

/-- The value of a sign change or a bitwise negation of a literal number. -/
def foldUnary? (op : UnaryOperator) (n : Number) : Option Number :=
  match op with
  | .negate =>
    match n.negate with
    | .float x => if x != x || x == 0.0 then none else some (.float x)
    | m => some m
  | .complement => n.toInteger?.map fun i => .int (~~~ i)
  | _ => none

/-- The instruction of an operator with one operand. -/
def unaryInstr (op : UnaryOperator) (r : Nat) : Instr :=
  match op with
  | .negate => .negate 0 r
  | .complement => .complement 0 r
  | .length => .length 0 r
  | .not => .not 0 r

/-- An operator applied to one operand. -/
def unary (op : UnaryOperator) (e : Operand) (line : Nat) : Gen Operand := do
  let e ← discharge e
  match op with
  | .not => negation e
  | _ =>
    match e.number?.bind (foldUnary? op) with
    | some n => return plain (.number n)
    | none =>
      let (e, r) ← anyRegister e
      free e
      let pc ← emit (unaryInstr op r)
      fixLine line
      return { e with kind := .pending pc }

/-! ## Operators with two operands -/

/-- The small integer that a literal number is, and whether it is written as a
float. -/
def small? (e : Operand) : Option (Int × Bool) :=
  match e.number? with
  | some (.int i) => if fitsOperand i.toInt then some (i.toInt, Bool.false) else none
  | some (.float x) =>
    match Binary64.toInt64? x .exact with
    | some i => if fitsOperand i.toInt then some (i.toInt, Bool.true) else none
    | none => none
  | none => none

/-- Is the operand a literal integer? -/
def isInteger (e : Operand) : Bool :=
  match e.kind with
  | .number (.int _) => Bool.true
  | _ => Bool.false

/-- The literal integer an operand is, if an instruction can hold it. -/
def smallInt? (e : Operand) : Option Int :=
  match e.number? with
  | some (.int i) => if fitsOperand i.toInt then some i.toInt else none
  | _ => none

/-- What happens to the first operand before the second one is compiled. -/
def infixStart (op : BinaryOperator) (e : Operand) : Gen Operand := do
  let e ← discharge e
  match op with
  | .and => goIfTrue e
  | .or => goIfFalse e
  | .concat => toNext e
  | .arith _ => if e.number?.isSome then return e else toAny e
  | .eq | .ne =>
    if e.number?.isSome then return e
    else
      let (e, _) ← toConstOr e
      return e
  | .lt | .le | .gt | .ge => if (small? e).isSome then return e else toAny e

/-- An operator on numbers whose second operand is decided. -/
def finishArith (op : Operator) (e f : Operand) (c : Source) (flipped : Bool) (line : Nat) :
    Gen Operand := do
  let (e, r) ← anyRegister e
  let pc ← emit (.arith op 0 r c flipped)
  freeBoth e f
  fixLine line
  return { e with kind := .pending pc }

/-- An operator on numbers with both operands in registers. -/
def arithRegisters (op : Operator) (e f : Operand) (line : Nat) : Gen Operand := do
  let (f, r) ← anyRegister f
  finishArith op e f (.reg r) Bool.false line

/-- An operator on numbers whose second operand may be a constant; `flipped`
tells that the operands were exchanged. -/
def arithConst (op : Operator) (e f : Operand) (flipped constant : Bool) (line : Nat) :
    Gen Operand := do
  let viaRegisters : Gen Operand :=
    if flipped then arithRegisters op f e line else arithRegisters op e f line
  if constant then
    match ← toConst? f with
    | some (f, k) => finishArith op e f (.const k) flipped line
    | none => viaRegisters
  else viaRegisters

/-- An operator on numbers applied to two operands. -/
def arith (op : Operator) (e f : Operand) (line : Nat) : Gen Operand := do
  let general : Gen Operand := arithConst op e f Bool.false f.number?.isSome line
  match op with
  | .add | .mul =>
    let flipped := e.number?.isSome
    let (e, f) := if flipped then (f, e) else (e, f)
    match op, smallInt? f with
    | .add, some i => finishArith op e f (.small i Bool.false) flipped line
    | _, _ => arithConst op e f flipped f.number?.isSome line
  | .sub =>
    match smallInt? f with
    | some i => if fitsOperand (-i) then finishArith op e f (.small i Bool.false) Bool.false line else general
    | none => general
  | .band | .bor | .bxor =>
    let flipped := isInteger e
    let (e, f) := if flipped then (f, e) else (e, f)
    arithConst op e f flipped (isInteger f) line
  | .shl =>
    match smallInt? e with
    | some i => finishArith op f e (.small i Bool.false) Bool.true line
    | none =>
      match smallInt? f with
      | some i =>
        if fitsOperand (-i) then finishArith op e f (.small i Bool.false) Bool.false line
        else arithRegisters op e f line
      | none => arithRegisters op e f line
  | .shr =>
    match smallInt? f with
    | some i => finishArith op e f (.small i Bool.false) Bool.false line
    | none => arithRegisters op e f line
  | _ => general

/-- A comparison for equality. -/
def equality (e f : Operand) (expected : Bool) : Gen Operand := do
  let (e, f) :=
    match e.kind with
    | .fixed _ => (e, f)
    | _ => (f, e)
  let (e, r) ← anyRegister e
  let (f, src) ←
    match small? f with
    | some (i, isFloat) => pure (f, Source.small i isFloat)
    | none => toConstOr f
  freeBoth e f
  let pc ← emitTest (.compare .eq r src expected)
  return { e with kind := .jump pc }

/-- A comparison by order. -/
def order (op mirrored : Comparison) (e f : Operand) : Gen Operand := do
  let finish (e f : Operand) (i : Instr) : Gen Operand := do
    freeBoth e f
    let pc ← emitTest i
    return ⟨.jump pc, [], []⟩
  match small? f with
  | some (i, isFloat) =>
    let (e, r) ← anyRegister e
    finish e f (.compare op r (.small i isFloat) Bool.true)
  | none =>
    match small? e with
    | some (i, isFloat) =>
      let (f, r) ← anyRegister f
      finish e f (.compare mirrored r (.small i isFloat) Bool.true)
    | none =>
      let (e, r) ← anyRegister e
      let (f, s) ← anyRegister f
      finish e f (.compare op r (.reg s) Bool.true)

/-- Joins the first operand to the second, which is in the next register.  A
second operand that is itself a concatenation is extended. -/
def concatenation (e f : Operand) (line : Nat) : Gen Operand := do
  let f ← toNext f
  let r := e.register?.getD 0
  let fresh : Gen Unit := do
    discard (emit (.concat r 2))
    free f
    fixLine line
  match ← previous with
  | some (.concat _ n) =>
    free f
    let pc ← here
    patch (pc - 1) fun _ => .concat r (n + 1)
  | _ => fresh
  return e

/-- An operator applied to two operands, the first of which went through
`infixStart`. -/
def infixEnd (op : BinaryOperator) (e f : Operand) (line : Nat) : Gen Operand := do
  let f ← discharge f
  match op with
  | .and => return { f with whenFalse := e.whenFalse ++ f.whenFalse }
  | .or => return { f with whenTrue := e.whenTrue ++ f.whenTrue }
  | .concat => concatenation e f line
  | .eq => equality e f Bool.true
  | .ne => equality e f Bool.false
  | .lt => order .lt .gt e f
  | .le => order .le .ge e f
  | .gt => order .lt .gt f e
  | .ge => order .le .ge f e
  | .arith op =>
    let folded := do
      let a ← e.number?
      let b ← f.number?
      fold? op a b
    match folded with
    | some n => return plain (.number n)
    | none => arith op e f line

end Operand

end NpcDialog.Lua
