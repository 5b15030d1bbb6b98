import NpcDialog.Bytes

/-!
# Faults in TOML texts

What is wrong with a text and where.  A fault is shown with the line it is on
and a row of marks under the place.

* `Span` — a stretch of a text.
* `Fault` — what is wrong there.
* `Fault.text` — the fault as it is shown.
-/

namespace NpcDialog.Toml

/-- A stretch of a text, in bytes. -/
structure Span where
  /-- The first byte. -/
  start : Nat
  /-- The byte behind the last. -/
  stop : Nat
  deriving DecidableEq

/-- What is wrong with a text. -/
structure Fault where
  /-- Where it is. -/
  span : Span
  /-- What it is. -/
  message : String
  deriving DecidableEq

/-- The number of line feeds among the first `n` bytes. -/
def lineFeeds (b : Bytes) : Nat → Nat
  | 0 => 0
  | n + 1 => lineFeeds b n + if b.byteAt n == 10 then 1 else 0

/-- Where the line begins that holds the byte behind the first `n`. -/
def lineStart (b : Bytes) : Nat → Nat
  | 0 => 0
  | n + 1 => if b.byteAt n == 10 then n + 1 else lineStart b n

/-- A place in a text. -/
structure Place where
  /-- The line, counted from zero. -/
  line : Nat
  /-- The column, counted from zero. -/
  column : Nat
  /-- The whole line. -/
  content : Bytes

/-- The place of a byte.  Columns count characters, or bytes where the byte is
the first of a longer character; the place behind the text is on the line of
its last byte. -/
def Place.ofIndex (b : Bytes) (index : Nat) : Place :=
  let safe := min index (b.size - 1)
  let start := lineStart b safe
  let stop := (b.indexOf? 10 start).getD b.size
  let shown := b.slice start (safe + 1)
  let column := if shown.isText then shown.toText.length - 1 else safe - start
  ⟨lineFeeds b start, column + (index - safe), b.slice start stop⟩

/-- `n` copies of a character. -/
def repeated (c : Char) (n : Nat) : String := String.ofList (List.replicate n c)

/-- The fault as it is shown: its place, the line with marks under it, and what
is wrong. -/
def Fault.text (source : String) (f : Fault) : String :=
  let b := Bytes.ofText source
  let place := Place.ofIndex b f.span.start
  let number := toString (place.line + 1)
  let gutter := repeated ' ' (number.length + 1) ++ "|"
  let width := min (f.span.stop - f.span.start) (place.content.size - place.column)
  s!"TOML parse error at line {number}, column {place.column + 1}\n{gutter}\n{number} | "
    ++ place.content.toText ++ "\n" ++ gutter ++ repeated ' ' (place.column + 1)
    ++ repeated '^' (max 1 width) ++ "\n" ++ f.message ++ "\n"

end NpcDialog.Toml
