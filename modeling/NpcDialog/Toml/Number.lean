import NpcDialog.Lua.Numeral
import NpcDialog.Toml.Text
import NpcDialog.Toml.Value

/-!
# Numbers and dates in TOML

* `Parser.integer` — integers in four bases.
* `Parser.float` — floats.
* `Parser.dateTime` — dates and times, which are read but not worked out.
-/

namespace NpcDialog.Toml.Parser

open Bytes (ofText isDigit)

/-! ## Digits -/

/-- Digits, with underscores between them. -/
def digitRow (isDigit : UInt8 → Bool) : Parser Unit := do
  let _ ← oneOf isDigit
  let _ ← many (orElse (ignored (oneOf isDigit)) (do
    let _ ← byte 95
    let _ ← expecting "digit" (cut (oneOf isDigit))))

/-- A sign that may be missing. -/
def optionalSign : Parser (Option UInt8) := optional (oneOf fun c => c == 43 || c == 45)

/-- The value of a row of digits. -/
def digitsValue (base : Nat) (s : Bytes) : Nat :=
  s.foldl (fun n c => if c == 95 then n else n * base + Bytes.hexValue c) 0

/-! ## Integers -/

/-- The complaint about a number that does not fit into 64 bits. -/
def tooLong (negative : Bool) : Complaint :=
  .ofCause (if negative then "number too small to fit in target type"
    else "number too large to fit in target type")

/-- An integer, if it fits into 64 bits. -/
def fitting (negative : Bool) (n : Nat) : Except Complaint Value :=
  if n < 0x8000000000000000 ∨ (negative ∧ n = 0x8000000000000000) then .ok (.integer (if negative then -n else n))
  else .error (tooLong negative)

/-- The spelling of a decimal integer. -/
def decimal : Parser Bytes :=
  labelled "integer" (taken do
    let _ ← optionalSign
    orElse (do
      let _ ← ahead (oneOf fun c => isDigit c && c != 48)
      digitRow isDigit) (ignored (oneOf isDigit)))

/-- Is a spelling that of a negative number? -/
def isNegative (s : Bytes) : Bool := s.byteAt 0 == 45

/-- A spelling without its sign. -/
def unsigned (s : Bytes) : Bytes :=
  if s.byteAt 0 == 45 || s.byteAt 0 == 43 then s.slice 1 s.size else s

/-- An integer behind a mark of its base. -/
def based (label : String) (base : Nat) (isDigit : UInt8 → Bool) : Parser Value :=
  cut (judged (labelled label do
    let _ ← any
    let _ ← any
    taken (cut (digitRow isDigit))) fun s => fitting false (digitsValue base s))

/-- An integer. -/
def integer : Parser Value := do
  match ← peek?, ← peekSecond? with
  | some 48, some 120 => based "hexadecimal integer" 16 Bytes.isHex
  | some 48, some 111 => based "octal integer" 8 fun c => 48 ≤ c && c ≤ 55
  | some 48, some 98 => based "binary integer" 2 fun c => c == 48 || c == 49
  | _, _ => judgedFinally decimal fun s => fitting (isNegative s) (digitsValue 10 (unsigned s))

/-! ## Floats -/

/-- An exponent. -/
def exponentPart : Parser Unit := do
  let _ ← oneOf fun c => c == 101 || c == 69
  let _ ← optionalSign
  cut (digitRow isDigit)

/-- A point and the digits behind it. -/
def fraction : Parser Unit := do
  let _ ← byte 46
  expecting "digit" (cut (digitRow isDigit))

/-- The spelling of a float. -/
def floatSpelling : Parser Bytes :=
  taken do
    let _ ← decimal
    orElse exponentPart (do
      fraction
      let _ ← optional exponentPart)

/-- A spelling without underscores. -/
def withoutUnderscores (s : Bytes) : Bytes :=
  s.foldl (fun acc c => if c == 95 then acc else acc.push c) ByteArray.empty

/-- The float of a spelling, unless it is out of reach above. -/
def floatValue (s : Bytes) : Except Complaint Value :=
  let x := (Lua.Numeral.float? (withoutUnderscores s)).getD 0
  if x == Lua.Binary64.infinity then .error .empty else .ok (.float x)

/-- Infinity. -/
def infinity : Parser Float := do
  literal (ofText "inf")
  return Lua.Binary64.infinity

/-- The float that is no number. -/
def notNumber : Parser Float := do
  literal (ofText "nan")
  return 0.0 / 0.0

/-- Infinity or no number, with a sign. -/
def specialFloat : Parser Value := do
  let sign ← optionalSign
  let x ← orElse infinity notNumber
  return .float (if sign == some 45 then -x else x)

/-- A float. -/
def float : Parser Value :=
  labelled "floating-point number" (orElse (judgedFinally floatSpelling floatValue) specialFloat)

/-! ## Dates and times -/

/-- So many digits, with a value between two bounds. -/
def digitsWithin (width low high : Nat) : Parser Nat :=
  judged (judged (takeUpTo width isDigit) fun s => if s.size == width then .ok s else .error .empty)
    fun s =>
      let n := digitsValue 10 s
      if low ≤ n ∧ n ≤ high then .ok n else .error outOfRange

/-- The number of days of a month. -/
def daysIn (year month : Nat) : Nat :=
  if month == 2 then
    if year % 4 == 0 && (year % 100 != 0 || year % 400 == 0) then 29 else 28
  else if month == 4 || month == 6 || month == 9 || month == 11 then 30
  else 31

/-- A date. -/
def fullDate : Parser Unit := do
  let year ← digitsWithin 4 0 9999
  let _ ← byte 45
  let month ← cut (digitsWithin 2 1 12)
  let _ ← cut (byte 45)
  let _ ← cut (judged (digitsWithin 2 1 31) fun day =>
    if day ≤ daysIn year month then .ok day else .error outOfRange)

/-- A time. -/
def partialTime : Parser Unit := do
  let _ ← digitsWithin 2 0 23
  let _ ← byte 58
  cut do
    let _ ← digitsWithin 2 0 59
    let _ ← byte 58
    let _ ← digitsWithin 2 0 60
    let _ ← optional do
      let _ ← byte 46
      takeSome isDigit

/-- A time zone. -/
def timeOffset : Parser Unit :=
  labelled "time offset" (orElse (ignored (oneOf fun c => c == 90 || c == 122)) (do
    let _ ← oneOf fun c => c == 43 || c == 45
    cut do
      let _ ← digitsWithin 2 0 23
      let _ ← byte 58
      let _ ← digitsWithin 2 0 59))

/-- A date, a time, or both. -/
def dateTime : Parser Value := do
  let date := labelled "date-time" do
    fullDate
    let _ ← optional do
      let _ ← oneOf fun c => c == 84 || c == 116 || c == 32
      partialTime
      let _ ← optional timeOffset
  return .datetime (← taken (orElse date (labelled "time" partialTime)))

end NpcDialog.Toml.Parser
