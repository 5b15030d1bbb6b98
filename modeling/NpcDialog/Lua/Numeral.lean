import NpcDialog.Bytes
import NpcDialog.Lua.Binary64

/-!
# Numerals

Reading numbers from text.  The same rules serve the literals of a program and
the strings that are coerced while it runs: optional white space and sign, then
a decimal or hexadecimal numeral, then optional white space.

* `Number` — an integer or a float.
* `Numeral.integer?` — a numeral for a 64-bit integer.
* `Numeral.float?` — any other numeral.
* `Numeral.read?` — the number a text stands for.
-/

namespace NpcDialog.Lua

/-- A number: a 64-bit integer or a float. -/
inductive Number where
  /-- An integer. -/
  | int (n : Int64)
  /-- A float. -/
  | float (x : Float)

namespace Numeral

/-- The index of the first byte at or after `i` that is no white space, among
`n` bytes. -/
def skipSpaceAux (b : Bytes) : Nat → Nat → Nat
  | 0, i => i
  | n + 1, i => if Bytes.isSpace (b.byteAt i) then skipSpaceAux b n (i + 1) else i

/-- The index of the first byte at or after `i` that is no white space. -/
def skipSpace (b : Bytes) (i : Nat) : Nat := skipSpaceAux b (b.size - i) i

/-- The sign at index `i`, and the index behind it. -/
def sign (b : Bytes) (i : Nat) : Bool × Nat :=
  if b.byteAt i == 45 then (true, i + 1)
  else if b.byteAt i == 43 then (false, i + 1)
  else (false, i)

/-- The value of the longest run of digits of a base from `i` on, continuing
`value`, and the index behind it.  The first argument bounds the digits. -/
def digits (base : Nat) (isDigit : UInt8 → Bool) (b : Bytes) : Nat → Nat → Nat → Nat × Nat
  | 0, i, value => (value, i)
  | n + 1, i, value =>
    if i < b.size && isDigit (b.byteAt i) then
      digits base isDigit b n (i + 1) (value * base + Bytes.hexValue (b.byteAt i))
    else (value, i)

/-- The run of decimal digits from `i` on. -/
def decimalDigits (b : Bytes) (i : Nat) (value : Nat) : Nat × Nat :=
  digits 10 Bytes.isDigit b (b.size - i) i value

/-- The run of hexadecimal digits from `i` on. -/
def hexDigits (b : Bytes) (i : Nat) (value : Nat) : Nat × Nat :=
  digits 16 Bytes.isHex b (b.size - i) i value

/-- Does a hexadecimal numeral begin at index `i`? -/
def beginsHex (b : Bytes) (i : Nat) : Bool :=
  b.byteAt i == 48 && (b.byteAt (i + 1) == 120 || b.byteAt (i + 1) == 88)

/-- The integer a numeral stands for.  Hexadecimal numerals wrap around, while
a decimal numeral too large for 64 bits is no integer. -/
def integer? (b : Bytes) : Option Int64 :=
  let (negative, start) := sign b (skipSpace b 0)
  let hex := beginsHex b start
  let start := if hex then start + 2 else start
  let (value, stop) := if hex then hexDigits b start 0 else decimalDigits b start 0
  if stop == start || skipSpace b stop != b.size then none
  else if hex then
    let n := Int64.ofNat value
    some (if negative then -n else n)
  else if negative then
    if value ≤ 0x8000000000000000 then some (Int64.ofInt (-(value : Int))) else none
  else if value < 0x8000000000000000 then some (Int64.ofNat value) else none

/-- An exponent part from index `i` on: a letter, an optional sign and decimal
digits.  Without digits nothing is read. -/
def exponent (b : Bytes) (i : Nat) (letter : UInt8) : Int × Nat :=
  if Bytes.lower (b.byteAt i) == letter then
    let (negative, start) := sign b (i + 1)
    let (value, stop) := decimalDigits b start 0
    if stop == start then (0, i)
    else (if negative then -(value : Int) else value, stop)
  else (0, i)

/-- The float `m * base ^ e`.  A magnitude that is far out of reach is not
worked out: its logarithm is estimated first. -/
def scale (negative : Bool) (m : Nat) (base : Nat) (e : Int) : Float :=
  let slope : Int := if base == 2 then e else if e < 0 then e * 332 / 100 else e * 3
  let bits := (m.log2 : Int) + slope
  if m == 0 || bits < -1100 then Binary64.ofRatio negative 0 1
  else if 1100 < bits then Binary64.ofMagnitude negative (2047 * Binary64.hiddenBit)
  else if 0 ≤ e then Binary64.ofRatio negative (m * Nat.pow base e.toNat) 1
  else Binary64.ofRatio negative m (Nat.pow base (-e).toNat)

/-- The float a numeral stands for. -/
def float? (b : Bytes) : Option Float :=
  let (negative, start) := sign b (skipSpace b 0)
  let hex := beginsHex b start && (Bytes.isHex (b.byteAt (start + 2))
    || (b.byteAt (start + 2) == 46 && Bytes.isHex (b.byteAt (start + 3))))
  let run := if hex then hexDigits b else decimalDigits b
  let start := if hex then start + 2 else start
  let (whole, afterWhole) := run start 0
  let point := b.byteAt afterWhole == 46 && afterWhole < b.size
  let (value, afterFraction) := if point then run (afterWhole + 1) whole else (whole, afterWhole)
  let places := if point then afterFraction - afterWhole - 1 else 0
  if afterWhole == start && places == 0 then none
  else
    let (e, stop) := exponent b afterFraction (if hex then 112 else 101)
    if skipSpace b stop != b.size then none
    else if hex then some (scale negative value 2 (e - 4 * places))
    else some (scale negative value 10 (e - places))

/-- The number a text stands for. -/
def read? (b : Bytes) : Option Number :=
  match integer? b with
  | some n => some (.int n)
  | none => (float? b).map .float

end Numeral

end NpcDialog.Lua
