import NpcDialog.Toml.Parser

/-!
# Strings and blanks in TOML

The four kinds of strings, and everything that is skipped: blanks, ends of
lines, comments.

* `Parser.ws`, `Parser.newline`, `Parser.comment` — what is skipped.
* `Parser.basicString`, `Parser.literalString` — strings on one line.
* `Parser.string` — any string.
-/

namespace NpcDialog.Toml.Parser

open Bytes (ofText)

/-! ## Blanks -/

/-- A blank or a tab. -/
def isBlank (c : UInt8) : Bool := c == 32 || c == 9

/-- A byte of a character beyond ASCII. -/
def isBeyondAscii (c : UInt8) : Bool := 128 ≤ c

/-- A byte that may stand in a comment. -/
def isCommentByte (c : UInt8) : Bool := c == 9 || (32 ≤ c && c ≤ 126) || isBeyondAscii c

/-- Blanks. -/
def ws : Parser Bytes := takeWhile isBlank

/-- The end of a line. -/
def newline : Parser Unit :=
  orElse (do let _ ← byte 10) (do let _ ← byte 13; let _ ← byte 10)

/-- A comment. -/
def comment : Parser Unit := do
  let _ ← byte 35
  let _ ← takeWhile isCommentByte

/-- The end of a line or of the text. -/
def lineEnding : Parser Unit := orElse newline finish

/-- What may follow on a line. -/
def lineTrailing : Parser Unit := do
  let _ ← ws
  let _ ← optional comment
  lineEnding

/-- Blanks and ends of lines. -/
def wsNewline : Parser Unit := do
  let _ ← many (orElse newline (do let _ ← takeSome isBlank))

/-- Blanks, ends of lines and comments, `n` lines at most. -/
def skipLines : Nat → Parser Unit
  | 0 => pure ()
  | n + 1 => do
    let _ ← ws
    match ← peek? with
    | some 35 => do
      comment
      newline
      skipLines n
    | some 10 | some 13 => do
      newline
      skipLines n
    | _ => pure ()

/-- Blanks, ends of lines and comments. -/
def wsCommentNewline : Parser Unit := fun b i => skipLines (b.size - i + 1) b i

/-! ## Escapes -/

/-- A row of hexadecimal digits as a number. -/
def hexNumber (s : Bytes) : Nat :=
  s.foldl (fun n c => n * 16 + Bytes.hexValue c) 0

/-- The complaint about something that is out of its range. -/
def outOfRange : Complaint := .ofCause "value is out of range"

/-- A character by so many hexadecimal digits. -/
def hexEscape (width : Nat) : Parser Bytes :=
  judged (judged (takeUpTo width Bytes.isHex) fun s => if s.size == width then .ok s else .error .empty)
    fun s =>
      let n := hexNumber s
      if n < 0xD800 ∨ (0xDFFF < n ∧ n < 0x110000) then .ok (ofText (Char.ofNat n).toString)
      else .error outOfRange

/-- What may follow a backslash, in the words of a complaint. -/
def escapeMarks : List String :=
  ["b", "f", "n", "r", "t", "u", "U", "\\", "\""].map fun s => "\x60" ++ s ++ "\x60"

/-- What follows a backslash. -/
def escapeTail : Parser Bytes := do
  let c ← any
  match Char.ofNat c.toNat with
  | 'b' => return Bytes.single 8
  | 'f' => return Bytes.single 12
  | 'n' => return Bytes.single 10
  | 'r' => return Bytes.single 13
  | 't' => return Bytes.single 9
  | 'u' => labelled "unicode 4-digit hex code" (cut (hexEscape 4))
  | 'U' => labelled "unicode 8-digit hex code" (cut (hexEscape 8))
  | '\\' => return Bytes.single 92
  | '"' => return Bytes.single 34
  | _ => expectingAll escapeMarks (labelled "escape sequence" (cut refuse))

/-- A backslash and what follows it. -/
def escaped : Parser Bytes := do
  let _ ← byte 92
  escapeTail

/-! ## Strings on one line -/

/-- A byte that stands for itself between double quotes. -/
def isBasicByte (c : UInt8) : Bool := isCommentByte c && c != 34 && c != 92

/-- A byte that stands for itself between single quotes. -/
def isLiteralByte (c : UInt8) : Bool := isCommentByte c && c != 39

/-- Pieces of a string as one. -/
def joined (p : Parser (List Bytes)) : Parser Bytes := do return Bytes.join ByteArray.empty (← p)

/-- A string in double quotes. -/
def basicString : Parser Bytes := do
  let _ ← byte 34
  let s ← joined (many (orElse (takeSome isBasicByte) escaped))
  let _ ← labelled "basic string" (cut (byte 34))
  return s

/-- A string in single quotes. -/
def literalString : Parser Bytes :=
  labelled "literal string" do
    let _ ← byte 39
    let s ← takeWhile isLiteralByte
    let _ ← cut (byte 39)
    return s

/-! ## Strings on several lines -/

/-- One or two quotes that something follows. -/
def innerQuotes (quote : UInt8) (next : Parser Unit) : Parser Bytes :=
  let few (n : Nat) : Parser Bytes := do
    literal (Bytes.replicate n quote)
    ahead next
    return Bytes.replicate n quote
  orElse (few 2) (few 1)

/-- Three quotes. -/
def threeQuotes (quote : UInt8) : Parser Unit := literal (Bytes.replicate 3 quote)

/-- A value that does not matter. -/
def ignored {α : Type} (p : Parser α) : Parser Unit := do let _ ← p

/-- A backslash at the end of a line, which joins it with the next line that is
not blank. -/
def lineJoin : Parser Bytes := do
  let _ ← byte 92
  let _ ← ws
  newline
  wsNewline
  return ByteArray.empty

/-- A piece of a string in three double quotes. -/
def basicPiece : Parser Bytes :=
  orElse (takeSome isBasicByte) (orElse lineJoin (orElse escaped (do
    newline
    return Bytes.single 10)))

/-- A piece of a string in three single quotes. -/
def literalPiece : Parser Bytes :=
  orElse (takeSome isLiteralByte) (do
    newline
    return Bytes.single 10)

/-- What stands between three quotes. -/
def longBody (quote : UInt8) (piece : Parser Bytes) : Parser Bytes := do
  let first ← many piece
  let rest ← many do
    let quotes ← innerQuotes quote (ignored piece)
    let more ← many piece
    return quotes ++ Bytes.join ByteArray.empty more
  let last ← optional (innerQuotes quote (threeQuotes quote))
  return Bytes.join ByteArray.empty (first ++ rest ++ last.toList)

/-- A string in three quotes. -/
def longString (label : String) (quote : UInt8) (piece : Parser Bytes) : Parser Bytes :=
  labelled label do
    threeQuotes quote
    let _ ← optional newline
    let s ← cut (longBody quote piece)
    cut (threeQuotes quote)
    return s

/-- Any string. -/
def string : Parser Bytes :=
  orElse (longString "multiline basic string" 34 basicPiece) (orElse basicString
    (orElse (longString "multiline literal string" 39 literalPiece) literalString))

end NpcDialog.Toml.Parser
