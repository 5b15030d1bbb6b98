import NpcDialog.Lua.Library.Operations

/-!
# Functions on numbers

The functions of the table `math`.

* `Numbers.floor`, `Numbers.ceil`, `Numbers.toInteger` — ways to an integer.
* `Numbers.extreme` — the greatest or smallest argument.
* `Numbers.random`, `Numbers.seed` — random numbers.
-/

namespace NpcDialog.Lua.Numbers

open Bytes (ofText)

/-- Ends with a number. -/
def give (n : Number) : Proc Ending := Ending.value (.ofNumber n)

/-- A float as the integer it equals, if there is one. -/
def whole (x : Float) : Number := (Binary64.toInt64? x .exact).elim (.float x) .int

/-- A function of one float. -/
def viaFloat (f : Float → Float) (a : Args) : Proc Ending := do give (.float (f (← a.float 1)))

/-- The absolute value. -/
def abs (a : Args) : Proc Ending := do
  match a.get 1 with
  | .int n => give (.int (if n < 0 then 0 - n else n))
  | _ => viaFloat Float.abs a

/-- The greatest integer that is not greater. -/
def floor (a : Args) : Proc Ending := do
  match a.get 1 with
  | .int n => give (.int n)
  | _ => give (whole (Binary64.floor (← a.float 1)))

/-- The smallest integer that is not smaller. -/
def ceil (a : Args) : Proc Ending := do
  match a.get 1 with
  | .int n => give (.int n)
  | _ => give (whole (Binary64.ceil (← a.float 1)))

/-- The remainder of the truncated quotient. -/
def fmod (a : Args) : Proc Ending := do
  match a.get 1, a.get 2 with
  | .int m, .int d =>
    if d == 0 then Args.refuse 2 "zero"
    else if d == -1 then give (.int 0)
    else give (.int (m % d))
  | _, _ => do
    let x ← a.float 1
    let y ← a.float 2
    give (.float (Binary64.remainder x y))

/-- The integral and the fractional part. -/
def modf (a : Args) : Proc Ending := do
  match a.get 1 with
  | .int n => Ending.values #[.int n, .float 0.0]
  | _ => do
    let x ← a.float 1
    let ip := if x < 0.0 then Binary64.ceil x else Binary64.floor x
    Ending.values #[.ofNumber (whole ip), .float (if x == ip then 0.0 else x - ip)]

/-- The logarithm, to any base. -/
def log (a : Args) : Proc Ending := do
  let x ← a.float 1
  if a.isAbsent 2 then give (.float (Float.log x))
  else
    let base ← a.float 2
    if base == 2.0 then give (.float (Float.log2 x))
    else if base == 10.0 then give (.float (Float.log10 x))
    else give (.float (Float.log x / Float.log base))

/-- The argument in front of all others in an order: the greatest or the
smallest one. -/
def extreme (greatest : Bool) (a : Args) : Proc Ending := do
  let first ← a.any 1
  let best ← (List.range (a.size - 1)).foldlM (fun best i => do
    let v := a.get (i + 2)
    let better ← if greatest then Proc.isLess best v else Proc.isLess v best
    return if better then v else best) first
  Ending.value best

/-- The angle of a point. -/
def atan (a : Args) : Proc Ending := do
  let y ← a.float 1
  let x ← if a.isAbsent 2 then pure 1.0 else a.float 2
  give (.float (Float.atan2 y x))

/-- The integer that a number or numeral equals. -/
def toInteger (a : Args) : Proc Ending := do
  match (a.get 1).toInteger? with
  | some n => give (.int n)
  | none => do
    discard (a.any 1)
    Ending.value .nil

/-- The kind of a number. -/
def kind (a : Args) : Proc Ending := do
  match a.get 1 with
  | .int _ => Ending.value (.ofText "integer")
  | .float _ => Ending.value (.ofText "float")
  | _ => do
    discard (a.any 1)
    Ending.value .nil

/-- The order of integers without sign. -/
def isBelow (a : Args) : Proc Ending := do
  let m ← a.integer 1
  let n ← a.integer 2
  Ending.value (.bool (m.toUInt64 < n.toUInt64))

/-! ## Random numbers -/

/-- The word with its bits moved around. -/
def rotate (x : UInt64) (n : UInt64) : UInt64 := (x <<< n) ||| (x >>> (64 - n))

/-- The next random word. -/
def nextWord (s : RandomState) : UInt64 × RandomState :=
  let word := rotate (s.s1 * 5) 7 * 9
  let s2 := s.s2 ^^^ s.s0
  let s3 := s.s3 ^^^ s.s1
  (word, ⟨s.s0 ^^^ s3, s.s1 ^^^ s2, s2 ^^^ (s.s1 <<< 17), rotate s3 45⟩)

/-- Draws a random word. -/
def draw : Proc UInt64 := Proc.alter fun h =>
  let (word, random) := nextWord h.random
  (word, { h with random })

/-- A random word that is at most `n`, where the words at most `limit` are tried;
the first argument bounds the tries. -/
def project (n limit : UInt64) : Nat → UInt64 → Proc UInt64
  | 0, word => pure ((word &&& limit) % (n + 1))
  | k + 1, word => do
    let word := word &&& limit
    if word ≤ n then return word else project n limit k (← draw)

/-- A random number: a float below one, an integer up to a bound, or one between
two bounds. -/
def random (a : Args) : Proc Ending := do
  let word ← draw
  let between (low up : Int64) : Proc Ending := do
    if up < low then Args.refuse a.size "interval is empty"
    else
      let n := up.toUInt64 - low.toUInt64
      let limit := UInt64.ofNat (1 <<< (n.toNat.log2 + 1) - 1)
      let word ← project n limit 1000 word
      give (.int (word + low.toUInt64).toInt64)
  match a.size with
  | 0 => give (.float ((word >>> 11).toFloat * 1.1102230246251565e-16))
  | 1 => do
    let up ← a.integer 1
    if up == 0 then give (.int word.toInt64) else between 1 up
  | 2 => do between (← a.integer 1) (← a.integer 2)
  | _ => Proc.failWith "wrong number of arguments"

/-- Begins a new sequence of random numbers. -/
def seed (a : Args) : Proc Ending := do
  let (n1, n2) ←
    if a.isMissing 1 then do
      pure (← draw, ← draw)
    else do
      let n1 ← match ← a.number 1 with
        | .int n => pure n.toUInt64
        | .float x => pure ((Binary64.toInt64? x .exact).elim x.toBits Int64.toUInt64)
      pure (n1, (← a.integerOr 2 0).toUInt64)
  let random := (List.range 16).foldl (fun s _ => (nextWord s).2) ⟨n1, 0xFF, n2, 0⟩
  Proc.update fun h => { h with random }
  Ending.values #[.int n1.toInt64, .int n2.toInt64]

end NpcDialog.Lua.Numbers
