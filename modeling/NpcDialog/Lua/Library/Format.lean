import NpcDialog.Lua.Library.Operations

/-!
# Formatted text

The function `format` of strings: a text with directives, each of which writes
one argument.

* `Format.Directive` — flags, width and precision of a directive.
* `Format.integerText`, `Format.floatText` — numbers as directives want them.
* `Format.literalText` — values as they would be written in a program.
* `Format.format` — a whole text.
-/

namespace NpcDialog.Lua.Format

open Bytes (ofText)

/-- What stands between the mark of a directive and its letter. -/
structure Directive where
  /-- Is the text put to the left? -/
  left : Bool
  /-- Does a number that is not negative get a plus sign? -/
  plus : Bool
  /-- Does it get a blank in place of a sign? -/
  blank : Bool
  /-- Is the form asked for that shows base or point? -/
  alternate : Bool
  /-- Is a number filled with zeros? -/
  zero : Bool
  /-- The least number of bytes. -/
  width : Nat
  /-- The precision. -/
  precision : Option Nat

/-- The value of up to two digits at an index, and the index behind them. -/
def twoDigits (b : Bytes) (i : Nat) : Nat × Nat :=
  if !Bytes.isDigit (b.byteAt i) then (0, i)
  else
    let first := (b.byteAt i).toNat - 48
    if Bytes.isDigit (b.byteAt (i + 1)) then (first * 10 + (b.byteAt (i + 1)).toNat - 48, i + 2)
    else (first, i + 1)

/-- The index behind the flags that begin at `i`; the first argument bounds
them. -/
def flagsEnd (b flags : Bytes) : Nat → Nat → Nat
  | 0, i => i
  | n + 1, i => if i < b.size && flags.data.contains (b.byteAt i) then flagsEnd b flags n (i + 1) else i

/-- The directive that a text is, its letter at the end; absent if it is not well
formed.  `flags` are the flags that are allowed. -/
def Directive.read (form : Bytes) (flags : String) (precise : Bool) : Option Directive :=
  let stop := flagsEnd form (ofText flags) form.size 1
  let has (c : UInt8) : Bool := (List.range (stop - 1)).any fun i => form.byteAt (i + 1) == c
  let make (width : Nat) (precision : Option Nat) : Directive :=
    ⟨has 45, has 43, has 32, has 35, has 48, width, precision⟩
  if form.byteAt stop == 48 then none
  else
    let (width, i) := twoDigits form stop
    if precise && form.byteAt i == 46 then
      let (p, j) := twoDigits form (i + 1)
      if Bytes.isAlpha (form.byteAt j) then some (make width (some p)) else none
    else if Bytes.isAlpha (form.byteAt i) then some (make width none)
    else none

/-- A text filled with blanks up to the width. -/
def Directive.pad (d : Directive) (s : Bytes) : Bytes :=
  let fill := Bytes.replicate (d.width - s.size) 32
  if d.left then s ++ fill else fill ++ s

/-- A number filled with blanks in front of its sign, or with zeros behind it. -/
def Directive.padNumber (d : Directive) (sign digits : Bytes) (zeros : Bool) : Bytes :=
  if zeros && d.zero && !d.left then
    sign ++ Bytes.replicate (d.width - (sign.size + digits.size)) 48 ++ digits
  else d.pad (sign ++ digits)

/-- The sign of a number. -/
def Directive.sign (d : Directive) (negative : Bool) : Bytes :=
  if negative then ofText "-" else if d.plus then ofText "+" else if d.blank then ofText " "
  else ByteArray.empty

/-- The digits of a number in base eight. -/
def octalDigits : Nat → Nat → Bytes → Bytes
  | 0, _, acc => acc
  | k + 1, n, acc =>
    let acc := Bytes.single (48 + (n % 8).toUInt8) ++ acc
    if n < 8 then acc else octalDigits k (n / 8) acc

/-- An integer, in the form of a letter. -/
def integerText (d : Directive) (letter : UInt8) (n : Int64) : Bytes :=
  let bits := n.toUInt64.toNat
  let (sign, digits) : Bytes × Bytes :=
    if letter == 100 || letter == 105 then (d.sign (n < 0), Bytes.ofNat n.toInt.natAbs)
    else if letter == 117 then (ByteArray.empty, Bytes.ofNat bits)
    else if letter == 111 then
      let digits := octalDigits 22 bits ByteArray.empty
      (ByteArray.empty, if d.alternate && bits != 0 then ofText "0" ++ digits else digits)
    else
      let digits := Bytes.hexDigits bits
      let digits := if letter == 88 then digits.mapBytes Bytes.upper else digits
      let mark := if letter == 88 then ofText "0X" else ofText "0x"
      (if d.alternate && bits != 0 then mark else ByteArray.empty, digits)
  let digits := match d.precision with
    | none => digits
    | some p =>
      if p == 0 && n == 0 then ByteArray.empty else Bytes.replicate (p - digits.size) 48 ++ digits
  d.padNumber sign digits d.precision.isNone

/-- A float, in the form of a letter. -/
def floatText (d : Directive) (letter : UInt8) (x : Float) : Bytes :=
  let style : FloatText.Style :=
    match Bytes.lower letter with
    | 97 => .hexadecimal
    | 101 => .exponential
    | 102 => .fixed
    | _ => .general
  let (negative, digits) := FloatText.render style x d.precision d.alternate
  let finite := Bytes.isDigit (digits.byteAt 0)
  let fix (s : Bytes) : Bytes := if Bytes.isUpper letter then s.mapBytes Bytes.upper else s
  if style == .hexadecimal && finite then
    d.padNumber (d.sign negative ++ fix (digits.slice 0 2)) (fix (digits.slice 2 digits.size)) true
  else d.padNumber (d.sign negative) (fix digits) finite

/-- A byte of a string as it is written between quotes; `next` is the byte behind
it. -/
def quotedByte (c next : UInt8) : Bytes :=
  if c == 34 || c == 92 || c == 10 then Bytes.ofList [92, c]
  else if Bytes.isControl c then
    let digits := Bytes.ofNat c.toNat
    let digits := if Bytes.isDigit next then Bytes.replicate (3 - digits.size) 48 ++ digits else digits
    Bytes.single 92 ++ digits
  else Bytes.single c

/-- A string as it is written in a program. -/
def quotedText (s : Bytes) : Bytes :=
  let body := s.size.fold (fun i _ acc => acc ++ quotedByte (s.byteAt i) (s.byteAt (i + 1))) ByteArray.empty
  ofText "\"" ++ body ++ ofText "\""

/-- A value as it is written in a program, if it can be. -/
def literalText : Value → Option Bytes
  | .nil => some (ofText "nil")
  | .bool b => some (ofText (if b then "true" else "false"))
  | .int n =>
    some (if n == Int64.minValue then ofText "0x8000000000000000" else Number.toText (.int n))
  | .float x =>
    some (if x != x then ofText "(0/0)"
      else if x == 1.0 / 0.0 then ofText "1e9999"
      else if x == -1.0 / 0.0 then ofText "-1e9999"
      else floatText ⟨false, false, false, false, false, 0, none⟩ 97 x)
  | .str s => some (quotedText s)
  | _ => none

/-- The greatest length of a directive. -/
def directiveBound : Nat := 22

/-- The directive of a form, or a fault. -/
def directive (form : Bytes) (flags : String) (precise : Bool) : Proc Directive :=
  match Directive.read form flags precise with
  | some d => pure d
  | none =>
    Proc.fail (.message 1 (ofText "invalid conversion " ++ quoted form.beforeZero ++ ofText " to 'format'"))

/-- The text of argument `n` as a form wants it; the form ends in its letter. -/
def item (a : Args) (n : Nat) (form : Bytes) : Proc Bytes := do
  let letter := form.byteAt (form.size - 1)
  let integer (flags : String) : Proc Bytes := do
    let i ← a.integer n
    return integerText (← directive form flags true) letter i
  match Char.ofNat letter.toNat with
  | 'c' => do
    let d ← directive form "-" false
    return d.pad (Bytes.single (← a.integer n).toUInt64.toUInt8)
  | 'd' | 'i' => integer "-+ 0"
  | 'u' => integer "-0"
  | 'o' | 'x' | 'X' => integer "-#0"
  | 'a' | 'A' => do
    let d ← directive form "-+ #0" true
    return floatText d letter (← a.float n)
  | 'f' | 'e' | 'E' | 'g' | 'G' => do
    let x ← a.float n
    return floatText (← directive form "-+ #0" true) letter x
  | 'p' => do
    let d ← directive form "-" false
    let address := (a.get n).address
    return d.pad (if address.size == 0 then ofText "(null)" else address)
  | 'q' =>
    if form.size != 2 then Proc.failWith "specifier '%q' cannot have modifiers"
    else
      match literalText (a.get n) with
      | some s => return s
      | none => Args.refuse n "value has no literal form"
  | 's' => do
    let s ← Proc.show (a.get n)
    if form.size == 2 then return s
    else if (s.indexOf? 0 0).isSome then Args.refuse n "string contains zeros"
    else
      let d ← directive form "-" true
      if (form.indexOf? 46 0).isNone && 100 ≤ s.size then return s
      else return d.pad (match d.precision with
        | some p => s.slice 0 (min p s.size)
        | none => s)
  | _ =>
    Proc.fail (.message 1 (ofText "invalid conversion " ++ quoted form.beforeZero ++ ofText " to 'format'"))

/-- The text from index `i` on, where `n` arguments are used up; the first
argument bounds the bytes. -/
def formatFrom (a : Args) (text : Bytes) : Nat → Nat → Nat → Bytes → Proc Bytes
  | 0, _, _, acc => pure acc
  | k + 1, i, n, acc =>
    if text.size ≤ i then pure acc
    else
      match text.indexOf? 37 i with
      | none => pure (acc ++ text.slice i text.size)
      | some j => do
        let acc := acc ++ text.slice i j
        if text.byteAt (j + 1) == 37 && j + 1 < text.size then
          formatFrom a text k (j + 2) n (acc.push 37)
        else if a.size < n + 1 then Args.refuse (n + 1) "no value"
        else
          let stop := flagsEnd text (ofText "-+ #0123456789.") text.size (j + 1)
          if directiveBound ≤ stop - j then Proc.failWith "invalid format string to 'format'"
          else
            let form := if stop < text.size then text.slice j (stop + 1) else text.slice j stop ++ Bytes.single 0
            let part ← item a (n + 1) form
            formatFrom a text k (stop + 1) (n + 1) (acc ++ part)

/-- The text with its directives replaced by arguments. -/
def format (a : Args) : Proc Ending := do
  let text ← a.text 1
  Proc.returnString (← formatFrom a text (text.size + 1) 0 1 ByteArray.empty)

end NpcDialog.Lua.Format
