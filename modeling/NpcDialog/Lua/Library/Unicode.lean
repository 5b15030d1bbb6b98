import NpcDialog.Lua.Library.Strings
import NpcDialog.Lua.Token.Lexer

/-!
# Functions on UTF-8

The functions of the table `utf8`.  Sequences of up to six bytes are known,
which reach beyond the characters; only a lax caller gets to see those.

* `Unicode.decode` — the code at a place.
* `Unicode.char`, `Unicode.codepoint`, `Unicode.len`, `Unicode.offset`,
  `Unicode.codes` — the functions.
-/

namespace NpcDialog.Lua.Unicode

open Bytes (ofText)

/-- A byte that continues a sequence. -/
def isContinuation (c : UInt8) : Bool := c &&& 0xC0 == 0x80

/-- The value of `n` continuation bytes from index `i` on behind `value`. -/
def continued (s : Bytes) : Nat → Nat → Nat → Option Nat
  | 0, _, value => some value
  | n + 1, i, value =>
    let c := s.byteAt i
    if isContinuation c then continued s n (i + 1) (value * 64 + c.toNat % 64) else none

/-- The code of the sequence at index `i` and the index behind it, if it is well
formed. -/
def decode (s : Bytes) (i : Nat) (lax : Bool) : Option (Nat × Nat) :=
  let c := (s.byteAt i).toNat
  let sequence (extra lead least : Nat) : Option (Nat × Nat) := do
    let code ← continued s extra (i + 1) lead
    if code < least then none
    else if !lax && (0x10FFFF < code || (0xD800 ≤ code && code ≤ 0xDFFF)) then none
    else some (code, i + extra + 1)
  if c < 0x80 then some (c, i + 1)
  else if c < 0xC0 then none
  else if c < 0xE0 then sequence 1 (c - 0xC0) 0x80
  else if c < 0xF0 then sequence 2 (c - 0xE0) 0x800
  else if c < 0xF8 then sequence 3 (c - 0xF0) 0x10000
  else if c < 0xFC then sequence 4 (c - 0xF8) 0x200000
  else if c < 0xFE then sequence 5 (c - 0xFC) 0x4000000
  else none

/-- The place that a position stands for, where negative ones count from the
end. -/
def placeOf (pos : Int64) (size : Nat) : Int :=
  let p := pos.toInt
  if 0 ≤ p then p else if p < -(size : Int) then 0 else size + p + 1

/-- The string of codes. -/
def char (a : Args) : Proc Ending := do
  let parts ← (List.range a.size).mapM fun i => do
    let code ← a.integer (i + 1)
    if code.toUInt64 ≤ 0x7FFFFFFF then pure (Lexer.utf8Encode code.toUInt64.toNat)
    else Args.refuse (i + 1) "value out of range"
  Proc.returnString (Bytes.join ByteArray.empty parts)

/-- The number of characters from index `i` on to index `stop`, or the index at
which there is none; the first argument bounds them. -/
def countFrom (s : Bytes) (stop : Int) (lax : Bool) : Nat → Nat → Nat → Except Nat Nat
  | 0, _, n => .ok n
  | k + 1, i, n =>
    if stop < i then .ok n
    else
      match decode s i lax with
      | none => .error i
      | some (_, j) => countFrom s stop lax k j (n + 1)

/-- The number of characters of a part of a string. -/
def len (a : Args) : Proc Ending := do
  let s ← a.text 1
  let first := placeOf (← a.integerOr 2 1) s.size
  let last := placeOf (← a.integerOr 3 (-1)) s.size
  let lax := (a.get 4).isTrue
  if first < 1 || (s.size : Int) < first - 1 then Args.refuse 2 "initial position out of bounds"
  else if (s.size : Int) ≤ last - 1 then Args.refuse 3 "final position out of bounds"
  else
    match countFrom s (last - 1) lax (s.size + 1) (first - 1).toNat 0 with
    | .ok n => Ending.value (.ofNat n)
    | .error i => Ending.values #[.nil, .ofNat (i + 1)]

/-- The codes from index `i` on to index `stop`; the first argument bounds
them. -/
def codesFrom (s : Bytes) (stop : Int) (lax : Bool) : Nat → Nat → Array Value → Option (Array Value)
  | 0, _, acc => some acc
  | k + 1, i, acc =>
    if stop ≤ i then some acc
    else
      match decode s i lax with
      | none => none
      | some (code, j) => codesFrom s stop lax k j (acc.push (.ofNat code))

/-- The codes of a part of a string. -/
def codepoint (a : Args) : Proc Ending := do
  let s ← a.text 1
  let pos ← a.integerOr 2 1
  let first := placeOf pos s.size
  let last := placeOf (← a.integerOr 3 (Int64.ofInt first)) s.size
  let lax := (a.get 4).isTrue
  if first < 1 then Args.refuse 2 "out of bounds"
  else if (s.size : Int) < last then Args.refuse 3 "out of bounds"
  else if last < first then Ending.values #[]
  else
    match codesFrom s last lax (s.size + 1) (first - 1).toNat #[] with
    | some vs => Ending.values vs
    | none => Proc.failWith "invalid UTF-8 code"

/-- The index of the first byte of the character that index `i` is in. -/
def startOf (s : Bytes) : Nat → Nat
  | 0 => 0
  | i + 1 => if isContinuation (s.byteAt (i + 1)) then startOf s i else i + 1

/-- The index of the first byte behind index `i` that begins a character; the
first argument bounds the bytes. -/
def nextStart (s : Bytes) : Nat → Nat → Nat
  | 0, i => i
  | k + 1, i => if isContinuation (s.byteAt (i + 1)) then nextStart s k (i + 1) else i + 1

/-- The index `n` characters before index `i`, if there are so many. -/
def backward (s : Bytes) : Nat → Nat → Option Nat
  | 0, i => some i
  | n + 1, i => if i == 0 then none else backward s n (startOf s (i - 1))

/-- The index `n` characters behind index `i`, if there are so many. -/
def forward (s : Bytes) : Nat → Nat → Option Nat
  | 0, i => some i
  | n + 1, i => if s.size ≤ i then none else forward s n (nextStart s s.size i)

/-- The place of a character counted from another place. -/
def offset (a : Args) : Proc Ending := do
  let s ← a.text 1
  let n := (← a.integer 2).toInt
  let pos := placeOf (← a.integerOr 3 (if n ≤ 0 then Int64.ofNat (s.size + 1) else 1)) s.size
  if pos < 1 || (s.size : Int) < pos - 1 then Args.refuse 3 "position out of bounds"
  else
    let i := (pos - 1).toNat
    if n == 0 then Ending.value (.ofNat (startOf s i + 1))
    else if isContinuation (s.byteAt i) then Proc.failWith "initial position is a continuation byte"
    else
      let found := if n < 0 then backward s n.natAbs i else forward s (n.toNat - 1) i
      Ending.value (found.elim .nil fun i => .ofNat (i + 1))

/-- The character behind a place. -/
def codesStep (lax : Bool) (a : Args) : Proc Ending := do
  let s ← a.text 1
  let i := (← a.integer 2).toUInt64.toNat
  let i := if i == 0 then 0 else if i < s.size then nextStart s s.size (i - 1) else i
  if s.size ≤ i then Ending.values #[]
  else
    match decode s i lax with
    | none => Proc.failWith "invalid UTF-8 code"
    | some (code, j) =>
      if isContinuation (s.byteAt j) then Proc.failWith "invalid UTF-8 code"
      else Ending.values #[.ofNat (i + 1), .ofNat code]

/-- What a loop over the characters of a string needs. -/
def codes (a : Args) : Proc Ending := do
  let s ← a.text 1
  if isContinuation (s.byteAt 0) then Args.refuse 1 "invalid UTF-8 code"
  else Ending.values #[.builtin (.utfCodesStep (a.get 2).isTrue), .str s, .int 0]

/-- A pattern that matches one sequence. -/
def charPattern : Bytes :=
  ofText "[" ++ Bytes.ofList [0, 45, 0x7F, 0xC2, 45, 0xFD] ++ ofText "][" ++ Bytes.ofList [0x80, 45, 0xBF]
    ++ ofText "]*"

end NpcDialog.Lua.Unicode
