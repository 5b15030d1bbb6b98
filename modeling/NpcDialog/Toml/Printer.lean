import NpcDialog.Bytes

/-!
# Writing TOML

Strings are written in the plainest of four forms that fits: between double
quotes as they stand, between single quotes, and both again between three
quotes; where none of these fits, between double quotes with escapes.  The form
in three quotes begins with a line feed if the string has one.

* `Quoting` — the four forms.
* `Quoting.forText` — the form of a string.
* `writeString`, `writeField` — what is written.
-/

namespace NpcDialog.Toml

/-- The longest run of a character in a list. -/
def longestRun (c : Char) : List Char → Nat → Nat → Nat
  | [], _, best => best
  | d :: rest, run, best =>
    let run := if d == c then run + 1 else 0
    longestRun c rest run (max run best)

/-- Must a character be escaped in any form?  A line feed need not be. -/
def needsEscape (c : Char) : Bool := c != '\n' && (c.toNat < 32 || c.toNat == 127)

/-- The forms of a string. -/
inductive Quoting where
  /-- Double quotes. -/
  | basic
  /-- Single quotes. -/
  | literal
  /-- Three double quotes. -/
  | longBasic
  /-- Three single quotes. -/
  | longLiteral
  deriving DecidableEq

namespace Quoting

/-- The quotes. -/
def delimiter : Quoting → String
  | .basic => "\""
  | .literal => "'"
  | .longBasic => "\"\"\""
  | .longLiteral => "'''"

/-- Are there three quotes? -/
def isLong : Quoting → Bool
  | .longBasic | .longLiteral => true
  | _ => false

/-- Are there escapes? -/
def hasEscapes : Quoting → Bool
  | .basic | .longBasic => true
  | _ => false

/-- The form of a string. -/
def forText (s : List Char) : Quoting :=
  let doubles := longestRun '"' s 0 0
  let singles := longestRun '\x27' s 0 0
  let isPlain := !s.any needsEscape
  let hasBackslash := s.any (· == '\\')
  let hasNewline := s.any (· == '\n')
  if isPlain && !hasBackslash && doubles == 0 && !hasNewline then .basic
  else if isPlain && singles == 0 && !hasNewline then .literal
  else if isPlain && !hasBackslash && doubles ≤ 2 then .longBasic
  else if isPlain && singles ≤ 2 then .longLiteral
  else if hasNewline then .longBasic
  else .basic

end Quoting

/-- The hexadecimal digits of a character's number, four at least. -/
def fourDigits (c : Char) : String :=
  let digits := (Nat.toDigits 16 c.toNat).map Char.toUpper
  String.ofList (List.replicate (4 - digits.length) '0' ++ digits)

/-- The characters of a string with escapes; `run` counts the double quotes in
front, of which `most` may stand side by side. -/
def escapeChars (isLong : Bool) (most : Nat) : List Char → Nat → String
  | [], _ => ""
  | c :: rest, run =>
    if c == '"' then
      if most ≤ run then "\\\"" ++ escapeChars isLong most rest 0
      else "\"" ++ escapeChars isLong most rest (run + 1)
    else
      let shown :=
        match c with
        | '\x08' => "\\b"
        | '\t' => "\\t"
        | '\n' => if isLong then "\n" else "\\n"
        | '\x0c' => "\\f"
        | '\r' => "\\r"
        | '\\' => "\\\\"
        | c => if needsEscape c then "\\u" ++ fourDigits c else c.toString
      shown ++ escapeChars isLong most rest 0

/-- A string as it is written. -/
def writeString (s : String) : String :=
  let chars := s.toList
  let q := Quoting.forText chars
  let opening := if q.isLong && chars.any (· == '\n') then "\n" else ""
  let body := if q.hasEscapes then escapeChars q.isLong (if q.isLong then 2 else 0) chars 0 else s
  q.delimiter ++ opening ++ body ++ q.delimiter

/-- A field as it is written, given its value as it is written. -/
def writeField (name value : String) : String := name ++ " = " ++ value ++ "\n"

end NpcDialog.Toml
