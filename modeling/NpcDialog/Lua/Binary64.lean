/-!
# Binary floating point numbers, exactly

A finite `Float` is an integer times a power of two.  This file moves between
the two views, so that reading, printing and rounding numbers is a matter of
exact integer arithmetic.

* `Binary64.decode` — sign, mantissa and exponent of a finite float.
* `Binary64.ofRatio` — the float nearest to a quotient of natural numbers,
  ties going to the even mantissa.
* `Binary64.toInt?` — the integer a float holds, after flooring or not.
* `Binary64.remainder` — the remainder of the truncated quotient.
-/

namespace NpcDialog.Lua.Binary64

/-- A finite float: `mantissa` times two to the `exponent`, negated if
`negative`. -/
structure Parts where
  /-- Is the sign bit set? -/
  negative : Bool
  /-- The integer factor. -/
  mantissa : Nat
  /-- The power of two. -/
  exponent : Int

/-- What a float is. -/
inductive View where
  /-- No number. -/
  | notNumber
  /-- One of the two infinities. -/
  | infinite (negative : Bool)
  /-- A finite number. -/
  | finite (parts : Parts)

/-- The bit above the fraction, which counts as one step of the exponent. -/
def hiddenBit : Nat := 0x10000000000000

/-- The bit of the sign. -/
def signBit : Nat := 0x8000000000000000

/-- The exact content of a float. -/
def decode (x : Float) : View :=
  let bits : Nat := x.toBits.toNat
  let negative := bits / signBit == 1
  let field : Nat := bits / hiddenBit % 2048
  let fraction : Nat := bits % hiddenBit
  if field == 2047 then
    if fraction == 0 then .infinite negative else .notNumber
  else if field == 0 then .finite ⟨negative, fraction, -1074⟩
  else .finite ⟨negative, fraction + hiddenBit, (field : Int) - 1075⟩

/-- The float with given sign and magnitude bits. -/
def ofMagnitude (negative : Bool) (bits : Nat) : Float :=
  Float.ofBits (UInt64.ofNat (if negative then bits + signBit else bits))

/-- Positive infinity. -/
def infinity : Float := ofMagnitude false (2047 * hiddenBit)

/-- The quotient of two natural numbers rounded to the nearest integer, a half
going to the even neighbour. -/
def roundQuotient (num den : Nat) : Nat :=
  let q := num / den
  let twice := 2 * (num % den)
  if twice < den then q
  else if den < twice then q + 1
  else if q % 2 == 0 then q else q + 1

/-- The largest `e` with `2 ^ e ≤ num / den`, for positive numbers. -/
def log2Quotient (num den : Nat) : Int :=
  let guess : Int := (num.log2 : Int) - (den.log2 : Int)
  let fits (e : Int) : Bool :=
    if 0 ≤ e then den <<< e.toNat ≤ num else den ≤ num <<< (-e).toNat
  if fits (guess + 1) then guess + 1 else if fits guess then guess else guess - 1

/-- The float nearest to `num / den`, with ties to even.  The magnitude bits
are built as a sum, so that a mantissa that rounds up to the next power of two
carries into the exponent by itself. -/
def ofRatio (negative : Bool) (num den : Nat) : Float :=
  if num == 0 then ofMagnitude negative 0
  else
    let top := log2Quotient num den
    let exponent := max (top - 52) (-1074)
    let mantissa :=
      if 0 ≤ exponent then roundQuotient num (den <<< exponent.toNat)
      else roundQuotient (num <<< (-exponent).toNat) den
    let base := (exponent + 1074).toNat
    let bits :=
      if mantissa < hiddenBit then mantissa
      else (base + 1) * hiddenBit + (mantissa - hiddenBit)
    if 971 < exponent || 2047 * hiddenBit ≤ bits then ofMagnitude negative (2047 * hiddenBit)
    else ofMagnitude negative bits

/-- The float nearest to an integer. -/
def ofInt (n : Int) : Float := ofRatio (decide (n < 0)) n.natAbs 1

/-- How a float with a fractional part becomes an integer. -/
inductive Rounding where
  /-- Not at all. -/
  | exact
  /-- Towards minus infinity. -/
  | floor
  /-- Towards plus infinity. -/
  | ceil
  deriving DecidableEq

/-- The integer a finite float rounds to. -/
def Parts.toInt? (p : Parts) (mode : Rounding) : Option Int :=
  let signed (n : Nat) : Int := if p.negative then -(n : Int) else n
  if 0 ≤ p.exponent then some (signed (p.mantissa <<< p.exponent.toNat))
  else
    let den := 1 <<< (-p.exponent).toNat
    let whole := p.mantissa / den
    if p.mantissa % den == 0 then some (signed whole)
    else
      match mode with
      | .exact => none
      | .floor => some (if p.negative then -(whole : Int) - 1 else whole)
      | .ceil => some (if p.negative then -(whole : Int) else whole + 1)

/-- The integer a float rounds to, if it has one. -/
def toInt? (x : Float) (mode : Rounding) : Option Int :=
  match decode x with
  | .finite p => p.toInt? mode
  | _ => none

/-- Does an integer fit into 64 signed bits? -/
def inInt64 (n : Int) : Bool := -0x8000000000000000 ≤ n && n < 0x8000000000000000

/-- The 64-bit integer a float rounds to, if there is one. -/
def toInt64? (x : Float) (mode : Rounding) : Option Int64 :=
  match toInt? x mode with
  | some n => if inInt64 n then some (Int64.ofInt n) else none
  | none => none

/-- The remainder of the division that truncates, with the sign of the first
operand. -/
def remainder (x y : Float) : Float :=
  match decode x, decode y with
  | .finite a, .finite b =>
    if b.mantissa == 0 then 0.0 / 0.0
    else
      let e := min a.exponent b.exponent
      let m := a.mantissa <<< (a.exponent - e).toNat
      let n := b.mantissa <<< (b.exponent - e).toNat
      let r := m % n
      if r == 0 then ofMagnitude a.negative 0
      else if 0 ≤ e then ofRatio a.negative (r <<< e.toNat) 1
      else ofRatio a.negative r (1 <<< (-e).toNat)
  | .finite _, .infinite _ => x
  | _, _ => 0.0 / 0.0

/-- The greatest integral float not above `x`. -/
def floor (x : Float) : Float :=
  match decode x with
  | .finite p =>
    if 0 ≤ p.exponent then x
    else
      match p.toInt? .floor with
      | some n => if n == 0 then ofMagnitude p.negative 0 else ofInt n
      | none => x
  | _ => x

/-- The least integral float not below `x`. -/
def ceil (x : Float) : Float :=
  match decode x with
  | .finite p =>
    if 0 ≤ p.exponent then x
    else
      match p.toInt? .ceil with
      | some n => if n == 0 then ofMagnitude p.negative 0 else ofInt n
      | none => x
  | _ => x

end NpcDialog.Lua.Binary64
