import NpcDialog.Bytes
import NpcDialog.Lua.Binary64

/-!
# Floats as text

The decimal and hexadecimal forms of a float in the conventions of `e`, `f`,
`g` and `a` conversions: all digits are those of the exact value, rounded once,
a half going to the even digit.

* `FloatText.Style` — which of the four forms is meant.
* `FloatText.unsigned` — the digits of a finite magnitude in one form.
* `FloatText.shortest` — the form a script sees when a float becomes a string.
-/

namespace NpcDialog.Lua.FloatText

open Binary64 (roundQuotient)
open Bytes (ofText)

/-- The four ways to write a float. -/
inductive Style where
  /-- One digit, a point, `precision` digits and a decimal exponent. -/
  | exponential
  /-- A point before the last `precision` digits. -/
  | fixed
  /-- `precision` significant digits in the shorter of the two other forms. -/
  | general
  /-- Hexadecimal digits and a binary exponent. -/
  | hexadecimal
  deriving DecidableEq

/-- The digits of `n`, with zeros in front up to `width`. -/
def paddedDigits (n width : Nat) : Bytes :=
  let d := Bytes.ofNat n
  Bytes.replicate (width - d.size) 48 ++ d

/-- `m * 2 ^ e * 10 ^ k` rounded to an integer, a half going to the even one. -/
def scaledRound (m : Nat) (e k : Int) : Nat :=
  let num := m <<< e.toNat * Nat.pow 10 k.toNat
  let den := 1 <<< (-e).toNat * Nat.pow 10 (-k).toNat
  roundQuotient num den

/-- The decimal exponent of a positive number: the greatest `d` with
`10 ^ d ≤ m * 2 ^ e`. -/
def decimalExponent (m : Nat) (e : Int) : Int :=
  let fits (d : Int) : Bool :=
    Nat.pow 10 d.toNat <<< (-e).toNat ≤ m <<< e.toNat * Nat.pow 10 (-d).toNat
  let bits : Int := (m.log2 : Int) + e
  let guess := bits * 30103 / 100000
  if fits (guess + 1) then guess + 1
  else if fits guess then guess
  else guess - 1

/-- The first `digits` significant digits of a number and its decimal
exponent, after rounding. -/
def significant (m : Nat) (e : Int) (digits : Nat) : Nat × Int :=
  if m == 0 then (0, 0)
  else
    let d := decimalExponent m e
    let n := scaledRound m e ((digits : Int) - 1 - d)
    if Nat.pow 10 digits ≤ n then (n / 10, d + 1) else (n, d)

/-- A decimal exponent: its sign and at least two digits. -/
def exponentText (d : Int) : Bytes :=
  (if d < 0 then ofText "e-" else ofText "e+") ++ paddedDigits d.natAbs 2

/-- Digits with a point after the first `whole` of them.  A point that no digit
follows is written only on request. -/
def withPoint (digits : Bytes) (whole : Nat) (keepPoint : Bool) : Bytes :=
  let rest := digits.slice whole digits.size
  if rest.size == 0 && !keepPoint then digits.slice 0 whole
  else digits.slice 0 whole ++ ofText "." ++ rest

/-- The number of zeros at the end of a byte string, among its last `n`
bytes. -/
def trailingZeros (b : Bytes) : Nat → Nat
  | 0 => 0
  | n + 1 => if b.byteAt (b.size - 1) == 48 then 1 + trailingZeros (b.slice 0 (b.size - 1)) n else 0

/-- The fraction digits without the zeros at the end. -/
def dropTrailingZeros (digits : Bytes) (whole : Nat) : Bytes :=
  digits.slice 0 (digits.size - trailingZeros digits (digits.size - whole))

/-- The exponential form. -/
def exponential (m : Nat) (e : Int) (precision : Nat) (alternate : Bool) : Bytes :=
  let (n, d) := significant m e (precision + 1)
  withPoint (paddedDigits n (precision + 1)) 1 alternate ++ exponentText d

/-- The fixed form. -/
def fixed (m : Nat) (e : Int) (precision : Nat) (alternate : Bool) : Bytes :=
  let n := scaledRound m e precision
  let digits := paddedDigits n (precision + 1)
  withPoint digits (digits.size - precision) alternate

/-- The general form: exponential when the decimal exponent is below -4 or not
below the precision, and without trailing zeros unless they are asked for. -/
def general (m : Nat) (e : Int) (precision : Nat) (alternate : Bool) : Bytes :=
  let p := max precision 1
  let (n, d) := significant m e p
  if d < -4 || (p : Int) ≤ d then
    let digits := paddedDigits n p
    let digits := if alternate then digits else dropTrailingZeros digits 1
    withPoint digits 1 alternate ++ exponentText d
  else
    let places := ((p : Int) - 1 - d).toNat
    let digits := paddedDigits (if m == 0 then 0 else n) (places + 1)
    let whole := digits.size - places
    let digits := if alternate then digits else dropTrailingZeros digits whole
    withPoint digits whole alternate

/-- The hexadecimal form.  A normal number begins with the digit one, a
subnormal number with zero; without a precision all digits are written that
are needed. -/
def hexadecimal (m : Nat) (e : Int) (precision : Option Nat) (alternate : Bool) : Bytes :=
  let subnormal : Bool := m < Binary64.hiddenBit
  let exponent : Int := if m == 0 then 0 else if subnormal then -1022 else e + 52
  let (digits, places) : Nat × Nat :=
    match precision with
    | some p => if p < 13 then (roundQuotient m (1 <<< (4 * (13 - p))), p) else (m <<< (4 * (p - 13)), p)
    | none => (m, 13)
  let lead := digits >>> (4 * places)
  let fraction := Bytes.hexDigits (digits % 1 <<< (4 * places))
  let fraction := Bytes.replicate (places - fraction.size) 48 ++ fraction
  let fraction := if places == 0 then ByteArray.empty else fraction
  let fraction := if precision.isNone then dropTrailingZeros fraction 0 else fraction
  let point := if fraction.size == 0 && !alternate then ByteArray.empty else ofText "."
  let sign := if exponent < 0 then ofText "p-" else ofText "p+"
  ofText "0x" ++ Bytes.hexDigits lead ++ point ++ fraction ++ sign ++ Bytes.ofNat exponent.natAbs

/-- The digits of a finite magnitude. -/
def unsigned (style : Style) (m : Nat) (e : Int) (precision : Option Nat) (alternate : Bool) : Bytes :=
  match style with
  | .exponential => exponential m e (precision.getD 6) alternate
  | .fixed => fixed m e (precision.getD 6) alternate
  | .general => general m e (precision.getD 6) alternate
  | .hexadecimal => hexadecimal m e precision alternate

/-- The sign of a float and its unsigned text; numbers that are not finite are
words.  What is not a number is written with a sign, as the quotient of zeros is; the
sign that such a value has is not followed. -/
def render (style : Style) (x : Float) (precision : Option Nat) (alternate : Bool) : Bool × Bytes :=
  match Binary64.decode x with
  | .notNumber => (true, ofText "nan")
  | .infinite negative => (negative, ofText "inf")
  | .finite p => (p.negative, unsigned style p.mantissa p.exponent precision alternate)

/-- Does the text of a float read as an integer? -/
def looksIntegral (b : Bytes) : Bool :=
  b.data.all fun c => c == 45 || Bytes.isDigit c

/-- The text of a float: fourteen significant digits, and a fraction `.0` where
the text would read as an integer. -/
def shortest (x : Float) : Bytes :=
  let (negative, digits) := render .general x (some 14) false
  let text := if negative then Bytes.single 45 ++ digits else digits
  if looksIntegral text then text ++ ofText ".0" else text

end NpcDialog.Lua.FloatText
