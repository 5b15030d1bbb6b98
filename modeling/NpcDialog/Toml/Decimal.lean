import NpcDialog.Lua.FloatText

/-!
# Shortest decimals

The decimal form of a float with the fewest digits that read back as the same
float, without an exponent.

* `Decimal.candidates` — the neighbours of a number on a decimal grid.
* `Decimal.shortest` — the digits and their scale.
* `Decimal.text` — the number written out.
-/

namespace NpcDialog.Toml.Decimal

open Lua (Binary64.ofRatio Binary64.decode)
open Lua.FloatText (decimalExponent)

/-- `n * 10 ^ k` as a quotient. -/
def quotient (n : Nat) (k : Int) : Nat × Nat := (n * Nat.pow 10 k.toNat, Nat.pow 10 (-k).toNat)

/-- The two neighbours of `m * 2 ^ e` among the multiples of `10 ^ k`, the
nearer one first, the even one of two that are equally near. -/
def candidates (m : Nat) (e k : Int) : List Nat :=
  let num := m <<< e.toNat * Nat.pow 10 (-k).toNat
  let den := 1 <<< (-e).toNat * Nat.pow 10 k.toNat
  let low := num / den
  let twice := 2 * (num % den)
  if twice < den || (twice == den && low % 2 == 0) then [low, low + 1] else [low + 1, low]

/-- The digits and the scale of a positive number with the fewest digits; `x`
is its float.  The first argument bounds the digits that are still to be
tried, the second counts those of the grid. -/
def shortestFrom (x : Float) (m : Nat) (e d : Int) : Nat → Nat → Nat × Int
  | 0, digits => ((candidates m e (d + 1 - digits)).headD 0, d + 1 - digits)
  | n + 1, digits =>
    let k : Int := d + 1 - digits
    match (candidates m e k).find? fun c => Binary64.ofRatio false (quotient c k).1 (quotient c k).2 == x with
    | some c => (c, k)
    | none => shortestFrom x m e d n (digits + 1)

/-- The digits and the scale of a positive number with the fewest digits that
read back. -/
def shortest (x : Float) (m : Nat) (e : Int) : Nat × Int :=
  shortestFrom x m e (decimalExponent m e) 16 1

/-- A number written out, with a point only if digits follow it. -/
def written (n : Nat) (k : Int) : String :=
  if 0 ≤ k then toString (n * Nat.pow 10 k.toNat)
  else
    let places := (-k).toNat
    let fraction := toString (n % Nat.pow 10 places)
    let zeros := String.ofList (List.replicate (places - fraction.length) '0')
    let digits := (zeros ++ fraction).toList.reverse.dropWhile (· == '0')
    let whole := toString (n / Nat.pow 10 places)
    if digits.isEmpty then whole else whole ++ "." ++ String.ofList digits.reverse

/-- A float written out; whole numbers end with a point and a zero. -/
def text (x : Float) : String :=
  match Binary64.decode x with
  | .notNumber => "NaN"
  | .infinite negative => if negative then "-inf" else "inf"
  | .finite p =>
    let sign := if p.negative then "-" else ""
    let shown :=
      if p.mantissa == 0 then "0"
      else
        let (n, k) := shortest (if p.negative then -x else x) p.mantissa p.exponent
        written n k
    sign ++ shown ++ (if shown.any (· == '.') then "" else ".0")

end NpcDialog.Toml.Decimal
