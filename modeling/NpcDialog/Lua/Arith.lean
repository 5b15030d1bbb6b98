import NpcDialog.Lua.FloatText
import NpcDialog.Lua.Numeral

/-!
# Arithmetic and order of numbers

Integers are 64 bits wide and wrap around; floats are binary.  An operation on
two integers stays among the integers except for division and power; bitwise
operations need operands that are integers or floats with an integral value.
Integers and floats are compared by their exact values.

* `Operator` — the binary operators on numbers.
* `Number.apply` — the value of an operator, or why it has none.
* `Number.lt`, `Number.le`, `Number.same` — order and equality.
* `Number.toText` — the decimal numeral of a number.
-/

namespace NpcDialog.Lua

/-- The binary operators that work on numbers. -/
inductive Operator where
  /-- Sum. -/
  | add
  /-- Difference. -/
  | sub
  /-- Product. -/
  | mul
  /-- Remainder of the floored quotient. -/
  | mod
  /-- Power, always a float. -/
  | pow
  /-- Quotient, always a float. -/
  | div
  /-- Floored quotient. -/
  | idiv
  /-- Bitwise and. -/
  | band
  /-- Bitwise or. -/
  | bor
  /-- Bitwise exclusive or. -/
  | bxor
  /-- Shift to the left. -/
  | shl
  /-- Shift to the right, filling with zeros. -/
  | shr
  deriving DecidableEq

/-- Does the operator work on bits? -/
def Operator.isBitwise : Operator → Bool
  | .band | .bor | .bxor | .shl | .shr => true
  | _ => false

/-- The name of the operator, as its metamethod has it. -/
def Operator.name : Operator → String
  | .add => "add"
  | .sub => "sub"
  | .mul => "mul"
  | .mod => "mod"
  | .pow => "pow"
  | .div => "div"
  | .idiv => "idiv"
  | .band => "band"
  | .bor => "bor"
  | .bxor => "bxor"
  | .shl => "shl"
  | .shr => "shr"

/-- Why an operator has no value on two numbers. -/
inductive ArithFault where
  /-- An integer division by zero. -/
  | divideByZero
  /-- An integer remainder by zero. -/
  | moduloByZero
  /-- The first operand of a bitwise operator has no integer value. -/
  | firstNotInteger
  /-- The second operand of a bitwise operator has no integer value. -/
  | secondNotInteger
  deriving DecidableEq

namespace Number

/-- A number as a float. -/
@[inline] def toFloat : Number → Float
  | .int n => n.toFloat
  | .float x => x

/-- The integer equal to a number, if there is one. -/
def toInteger? : Number → Option Int64
  | .int n => some n
  | .float x => Binary64.toInt64? x .exact

/-! ## Operations on integers -/

/-- The floored quotient of two integers, the divisor not being zero. -/
def floorDiv (m n : Int64) : Int64 :=
  if n == -1 then 0 - m
  else
    let q := m / n
    if m % n != 0 && (decide (m < 0) != decide (n < 0)) then q - 1 else q

/-- The remainder of the floored quotient, the divisor not being zero. -/
def floorMod (m n : Int64) : Int64 :=
  if n == -1 then 0
  else
    let r := m % n
    if r != 0 && (decide (r < 0) != decide (n < 0)) then r + n else r

/-- A shift to the left; a negative amount shifts to the right, and bits that
leave on either side are lost. -/
def shiftLeft (m n : Int64) : Int64 :=
  let bits := m.toUInt64
  if n < 0 then
    if n ≤ -64 then 0 else (bits >>> (0 - n).toUInt64).toInt64
  else if 64 ≤ n then 0
  else (bits <<< n.toUInt64).toInt64

/-! ## Operations on floats -/

/-- The remainder of the floored quotient of two floats. -/
def floatMod (x y : Float) : Float :=
  let r := Binary64.remainder x y
  if (0.0 < r && y < 0.0) || (r < 0.0 && 0.0 < y) then r + y else r

/-- A power of a float. -/
def floatPow (x y : Float) : Float :=
  if y == 2.0 then x * x else Float.pow x y

/-! ## The operators -/

/-- The value of an arithmetic operator on two floats. -/
def applyFloat (op : Operator) (x y : Float) : Float :=
  match op with
  | .add => x + y
  | .sub => x - y
  | .mul => x * y
  | .mod => floatMod x y
  | .pow => floatPow x y
  | .div => x / y
  | .idiv => Binary64.floor (x / y)
  | _ => 0.0 / 0.0

/-- The value of a bitwise operator on two integers. -/
def applyBits (op : Operator) (m n : Int64) : Int64 :=
  match op with
  | .band => m &&& n
  | .bor => m ||| n
  | .bxor => m ^^^ n
  | .shl => shiftLeft m n
  | .shr => if n == Int64.minValue then 0 else shiftLeft m (0 - n)
  | _ => 0

/-- The value of an operator on two numbers. -/
def apply (op : Operator) (a b : Number) : Except ArithFault Number :=
  if op.isBitwise then
    match a.toInteger?, b.toInteger? with
    | some m, some n => .ok (.int (applyBits op m n))
    | none, _ => .error .firstNotInteger
    | some _, none => .error .secondNotInteger
  else
    match op, a, b with
    | .add, .int m, .int n => .ok (.int (m + n))
    | .sub, .int m, .int n => .ok (.int (m - n))
    | .mul, .int m, .int n => .ok (.int (m * n))
    | .mod, .int m, .int n =>
      if n == 0 then .error .moduloByZero else .ok (.int (floorMod m n))
    | .idiv, .int m, .int n =>
      if n == 0 then .error .divideByZero else .ok (.int (floorDiv m n))
    | _, _, _ => .ok (.float (applyFloat op a.toFloat b.toFloat))

/-- The number with its sign changed. -/
def negate : Number → Number
  | .int n => .int (0 - n)
  | .float x => .float (-x)

/-! ## Order -/

/-- Is an integer smaller than a float? -/
def intLtFloat (n : Int64) (x : Float) : Bool :=
  match Binary64.decode x with
  | .notNumber => false
  | .infinite negative => !negative
  | .finite p => (p.toInt? .ceil).any fun m => n.toInt < m

/-- Is an integer at most a float? -/
def intLeFloat (n : Int64) (x : Float) : Bool :=
  match Binary64.decode x with
  | .notNumber => false
  | .infinite negative => !negative
  | .finite p => (p.toInt? .floor).any fun m => n.toInt ≤ m

/-- Is a float smaller than an integer? -/
def floatLtInt (x : Float) (n : Int64) : Bool :=
  match Binary64.decode x with
  | .notNumber => false
  | .infinite negative => negative
  | .finite p => (p.toInt? .floor).any fun m => m < n.toInt

/-- Is a float at most an integer? -/
def floatLeInt (x : Float) (n : Int64) : Bool :=
  match Binary64.decode x with
  | .notNumber => false
  | .infinite negative => negative
  | .finite p => (p.toInt? .ceil).any fun m => m ≤ n.toInt

/-- The strict order of numbers. -/
def lt : Number → Number → Bool
  | .int m, .int n => m < n
  | .float x, .float y => x < y
  | .int m, .float y => intLtFloat m y
  | .float x, .int n => floatLtInt x n

/-- The order of numbers. -/
def le : Number → Number → Bool
  | .int m, .int n => m ≤ n
  | .float x, .float y => x ≤ y
  | .int m, .float y => intLeFloat m y
  | .float x, .int n => floatLeInt x n

/-- Are two numbers equal? -/
def same : Number → Number → Bool
  | .int m, .int n => m == n
  | .float x, .float y => x == y
  | .int m, .float y => Binary64.toInt64? y .exact == some m
  | .float x, .int n => Binary64.toInt64? x .exact == some n

/-- The text of a number. -/
def toText : Number → Bytes
  | .int n => Bytes.ofInt n.toInt
  | .float x => FloatText.shortest x

end Number

end NpcDialog.Lua
