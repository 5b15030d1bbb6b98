import NpcDialog.Lua.Token

/-!
# From text to tokens

`Token.scan` cuts a program text into tokens.  Scanning stops at the first
piece that is no token; the token list then ends in `Token.Kind.unreadable`,
which the reader of the list reports when it gets there.

* `Lexer.Cursor` — a position and its line.
* `Lexer.longBracket`, `Lexer.quotedString`, `Lexer.numeral` — the literals.
* `Token.scan` — all tokens of a text.
-/

namespace NpcDialog.Lua

open Bytes (ofText)

namespace Lexer

/-- A position in the text and the line it is on. -/
structure Cursor where
  /-- Index of the next byte. -/
  index : Nat
  /-- Line of that byte. -/
  line : Nat

/-- Why a piece of text is no token, and the line to report. -/
structure Fault where
  /-- The message, with the quoted place. -/
  reason : Bytes
  /-- The line of the message. -/
  line : Nat

/-- A fault that quotes the text read so far. -/
def faultNear (message : String) (seen : Bytes) (line : Nat) : Fault :=
  ⟨ofText message ++ ofText " near " ++ quoted seen.beforeZero, line⟩

/-- A fault at the end of the text. -/
def faultAtEnd (message : Bytes) (line : Nat) : Fault :=
  ⟨message ++ ofText " near <eof>", line⟩

/-- A line feed or carriage return. -/
@[inline] def isNewline (c : UInt8) : Bool := c == 10 || c == 13

/-- Skips a line break at the cursor; a line feed and a carriage return beside
each other are one break. -/
def skipNewline (src : Bytes) (c : Cursor) : Cursor :=
  let first := src.byteAt c.index
  let second := src.byteAt (c.index + 1)
  if c.index + 1 < src.size && isNewline second && second != first then ⟨c.index + 2, c.line + 1⟩
  else ⟨c.index + 1, c.line + 1⟩

/-- The number of `=` signs from an index on, among `n` bytes. -/
def countEquals (src : Bytes) : Nat → Nat → Nat
  | 0, _ => 0
  | n + 1, i => if src.byteAt i == 61 then 1 + countEquals src n (i + 1) else 0

/-- What a bracket at an index begins. -/
inductive Bracket where
  /-- A long bracket with a number of `=` signs. -/
  | long (level : Nat)
  /-- Only the bracket itself. -/
  | single
  /-- Signs without a second bracket behind the given index. -/
  | broken (stop : Nat)

/-- The kind of the bracket at an index. -/
def bracketAt (src : Bytes) (i : Nat) : Bracket :=
  let level := countEquals src (src.size - (i + 1)) (i + 1)
  let stop := i + 1 + level
  if stop < src.size && src.byteAt stop == src.byteAt i then .long level
  else if level == 0 then .single
  else .broken stop

/-- The contents of a long bracket from the cursor on, line breaks as single
line feeds.  The first argument bounds the bytes. -/
def longBody (src : Bytes) (level first : Nat) (what : String) :
    Nat → Cursor → Bytes → Except Fault (Bytes × Cursor)
  | 0, c, _ =>
    .error (faultAtEnd (ofText ("unfinished long " ++ what ++ " (starting at line ")
      ++ Bytes.ofNat first ++ ofText ")") c.line)
  | n + 1, c, acc =>
    if c.index < src.size then
      let b := src.byteAt c.index
      if b == 93 then
        match bracketAt src c.index with
        | .long l =>
          if l == level then .ok (acc, ⟨c.index + level + 2, c.line⟩)
          else longBody src level first what n ⟨c.index + 1, c.line⟩ (acc.push b)
        | _ => longBody src level first what n ⟨c.index + 1, c.line⟩ (acc.push b)
      else if isNewline b then longBody src level first what n (skipNewline src c) (acc.push 10)
      else longBody src level first what n ⟨c.index + 1, c.line⟩ (acc.push b)
    else longBody src level first what 0 c acc

/-- A long bracket whose opening begins at the cursor.  A line break right
behind the opening is no part of the contents. -/
def longBracket (src : Bytes) (level : Nat) (what : String) (c : Cursor) :
    Except Fault (Bytes × Cursor) :=
  let inside : Cursor := ⟨c.index + level + 2, c.line⟩
  let inside :=
    if inside.index < src.size && isNewline (src.byteAt inside.index) then skipNewline src inside
    else inside
  longBody src level c.line what (src.size + 1 - inside.index) inside ByteArray.empty

/-- The end of the line the index is on, among `n` bytes. -/
def lineEnd (src : Bytes) : Nat → Nat → Nat
  | 0, i => i
  | n + 1, i => if i < src.size && !isNewline (src.byteAt i) then lineEnd src n (i + 1) else i

/-- Skips white space and line breaks, among `n` bytes. -/
def skipBlank (src : Bytes) : Nat → Cursor → Cursor
  | 0, c => c
  | n + 1, c =>
    if c.index < src.size && Bytes.isSpace (src.byteAt c.index) then
      if isNewline (src.byteAt c.index) then skipBlank src n (skipNewline src c)
      else skipBlank src n ⟨c.index + 1, c.line⟩
    else c

/-! ## Escapes -/

/-- The UTF-8 form of a number below `2 ^ 31`, by the extended scheme of up to
six bytes. -/
def utf8Encode (n : Nat) : Bytes :=
  let tail (k : Nat) : UInt8 := UInt8.ofNat (128 + n >>> (6 * k) % 64)
  if n < 0x80 then Bytes.ofList [UInt8.ofNat n]
  else if n < 0x800 then Bytes.ofList [UInt8.ofNat (192 + n / 64), tail 0]
  else if n < 0x10000 then Bytes.ofList [UInt8.ofNat (224 + n / 4096), tail 1, tail 0]
  else if n < 0x200000 then Bytes.ofList [UInt8.ofNat (240 + n >>> 18), tail 2, tail 1, tail 0]
  else if n < 0x4000000 then
    Bytes.ofList [UInt8.ofNat (248 + n >>> 24), tail 3, tail 2, tail 1, tail 0]
  else Bytes.ofList [UInt8.ofNat (252 + n >>> 30), tail 4, tail 3, tail 2, tail 1, tail 0]

/-- The fault of an escape whose last byte is at index `i`: that byte is quoted
too unless the text ends there. -/
def escapeFault (src seen : Bytes) (start i line : Nat) (message : String) : Fault :=
  faultNear message (seen ++ src.slice start (i + 1)) line

/-- The digits of a Unicode escape from index `i` on, continuing `value`.  The
first argument bounds the digits. -/
def unicodeDigits (src seen : Bytes) (start line : Nat) : Nat → Nat → Nat → Except Fault (Nat × Nat)
  | 0, i, value => .ok (value, i)
  | n + 1, i, value =>
    if i < src.size && Bytes.isHex (src.byteAt i) then
      if value ≤ 0x7FFFFFF then
        unicodeDigits src seen start line n (i + 1) (value * 16 + Bytes.hexValue (src.byteAt i))
      else .error (escapeFault src seen start i line "UTF-8 value too large")
    else .ok (value, i)

/-- The number of decimal digits from an index on, at most `n`. -/
def digitRun (src : Bytes) : Nat → Nat → Nat
  | 0, _ => 0
  | n + 1, i =>
    if i < src.size && Bytes.isDigit (src.byteAt i) then 1 + digitRun src n (i + 1) else 0

/-- The bytes an escape stands for, the backslash being at `start`, and the
cursor behind it.  `seen` is the literal read so far. -/
def escape (src seen : Bytes) (start line : Nat) : Except Fault (Bytes × Cursor) :=
  let i := start + 1
  let plain (c : UInt8) : Except Fault (Bytes × Cursor) := .ok (Bytes.single c, ⟨i + 1, line⟩)
  if src.size ≤ i then .ok (Bytes.single 92, ⟨i, line⟩)
  else
    let c := src.byteAt i
    match Char.ofNat c.toNat with
    | 'a' => plain 7
    | 'b' => plain 8
    | 'f' => plain 12
    | 'n' => plain 10
    | 'r' => plain 13
    | 't' => plain 9
    | 'v' => plain 11
    | '\\' => plain 92
    | '"' => plain 34
    | '\x27' => plain 39
    | 'x' =>
      let bad (k : Nat) : Except Fault (Bytes × Cursor) :=
        .error (escapeFault src seen start k line "hexadecimal digit expected")
      if src.size ≤ i + 1 || !Bytes.isHex (src.byteAt (i + 1)) then bad (i + 1)
      else if src.size ≤ i + 2 || !Bytes.isHex (src.byteAt (i + 2)) then bad (i + 2)
      else
        let value := Bytes.hexValue (src.byteAt (i + 1)) * 16 + Bytes.hexValue (src.byteAt (i + 2))
        .ok (Bytes.single (UInt8.ofNat value), ⟨i + 3, line⟩)
    | 'u' =>
      if src.size ≤ i + 1 || src.byteAt (i + 1) != 123 then
        .error (escapeFault src seen start (i + 1) line "missing '\x7b'")
      else if src.size ≤ i + 2 || !Bytes.isHex (src.byteAt (i + 2)) then
        .error (escapeFault src seen start (i + 2) line "hexadecimal digit expected")
      else do
        let (value, stop) ← unicodeDigits src seen start line (src.size - i) (i + 2) 0
        if src.size ≤ stop || src.byteAt stop != 125 then
          .error (escapeFault src seen start stop line "missing '\x7d'")
        else .ok (utf8Encode value, ⟨stop + 1, line⟩)
    | 'z' => .ok (ByteArray.empty, skipBlank src (src.size - i) ⟨i + 1, line⟩)
    | _ =>
      if isNewline c then .ok (Bytes.single 10, skipNewline src ⟨i, line⟩)
      else
        let count := digitRun src 3 i
        if count == 0 then .error (escapeFault src seen start i line "invalid escape sequence")
        else
          let (value, _) := Numeral.digits 10 Bytes.isDigit src count i 0
          if 255 < value then
            .error (escapeFault src seen start (i + count) line "decimal escape too large")
          else .ok (Bytes.single (UInt8.ofNat value), ⟨i + count, line⟩)

/-- A string literal up to its closing delimiter.  `seen` is the opening
delimiter and the value read so far; the first argument bounds the bytes. -/
def quotedBody (src : Bytes) (delimiter : UInt8) :
    Nat → Cursor → Bytes → Except Fault (Bytes × Cursor)
  | 0, c, _ => .error (faultAtEnd (ofText "unfinished string") c.line)
  | n + 1, c, seen =>
    if c.index < src.size then
      let b := src.byteAt c.index
      if b == delimiter then .ok (seen.push b, ⟨c.index + 1, c.line⟩)
      else if isNewline b then .error (faultNear "unfinished string" seen c.line)
      else if b == 92 then
        match escape src seen c.index c.line with
        | .ok (value, next) => quotedBody src delimiter n next (seen ++ value)
        | .error e => .error e
      else quotedBody src delimiter n ⟨c.index + 1, c.line⟩ (seen.push b)
    else .error (faultAtEnd (ofText "unfinished string") c.line)

/-- A string literal whose delimiter is at the cursor. -/
def quotedString (src : Bytes) (c : Cursor) : Except Fault (Bytes × Cursor) :=
  let delimiter := src.byteAt c.index
  quotedBody src delimiter (src.size + 1 - c.index) ⟨c.index + 1, c.line⟩ (Bytes.single delimiter)

/-! ## Numbers and names -/

/-- The end of the piece that is read as a numeral: digits, points and
exponents with an optional sign.  The first argument bounds the bytes. -/
def numeralEnd (src : Bytes) (letter : UInt8) : Nat → Nat → Nat
  | 0, i => i
  | n + 1, i =>
    if src.size ≤ i then i
    else
      let c := src.byteAt i
      if Bytes.lower c == letter then
        let next := src.byteAt (i + 1)
        if next == 43 || next == 45 then numeralEnd src letter n (i + 2)
        else numeralEnd src letter n (i + 1)
      else if Bytes.isHex c || c == 46 then numeralEnd src letter n (i + 1)
      else i

/-- A byte that may begin a name. -/
@[inline] def beginsName (c : UInt8) : Bool := Bytes.isAlpha c || c == 95

/-- A byte that may continue a name. -/
@[inline] def continuesName (c : UInt8) : Bool := Bytes.isAlnum c || c == 95

/-- A number literal that begins at the cursor.  A letter right behind it makes
it malformed. -/
def numeral (src : Bytes) (c : Cursor) : Except Fault (Number × Bytes × Cursor) :=
  let hex := Numeral.beginsHex src c.index
  let stop :=
    if hex then numeralEnd src 112 (src.size - c.index) (c.index + 2)
    else numeralEnd src 101 (src.size - c.index) (c.index + 1)
  let stop := if stop < src.size && beginsName (src.byteAt stop) then stop + 1 else stop
  let text := src.slice c.index stop
  match Numeral.read? text with
  | some n => .ok (n, text, ⟨stop, c.line⟩)
  | none => .error (faultNear "malformed number" text c.line)

/-- The end of the name an index is in, among `n` bytes. -/
def nameEnd (src : Bytes) : Nat → Nat → Nat
  | 0, i => i
  | n + 1, i => if i < src.size && continuesName (src.byteAt i) then nameEnd src n (i + 1) else i

/-! ## Tokens -/

/-- An operator of two or three bytes at an index, with its length. -/
def longMark? (src : Bytes) (i : Nat) : Option (Mark × Nat) :=
  let next := src.byteAt (i + 1)
  match Char.ofNat (src.byteAt i).toNat, Char.ofNat next.toNat with
  | '=', '=' => some (.equals, 2)
  | '<', '=' => some (.atMost, 2)
  | '<', '<' => some (.shiftLeft, 2)
  | '>', '=' => some (.atLeast, 2)
  | '>', '>' => some (.shiftRight, 2)
  | '/', '/' => some (.doubleSlash, 2)
  | '~', '=' => some (.differs, 2)
  | ':', ':' => some (.doubleColon, 2)
  | '.', '.' => if src.byteAt (i + 2) == 46 then some (.ellipsis, 3) else some (.doubleDot, 2)
  | _, _ => none

/-- The token that begins at the cursor, which is at no white space and no
comment, and the cursor behind it. -/
def tokenAt (src : Bytes) (c : Cursor) : Except Fault (Token × Cursor) :=
  let b := src.byteAt c.index
  let string (r : Bytes × Cursor) (skip : Nat) : Token × Cursor :=
    (⟨.str (r.1.slice skip (r.1.size - skip)), r.1, r.2.line⟩, r.2)
  if src.size ≤ c.index then .ok (⟨.stop, ByteArray.empty, c.line⟩, c)
  else if b == 34 || b == 39 then do
    let r ← quotedString src c
    .ok (string r 1)
  else if Bytes.isDigit b || (b == 46 && Bytes.isDigit (src.byteAt (c.index + 1))) then do
    let (n, text, next) ← numeral src c
    .ok (⟨.number n, text, c.line⟩, next)
  else if beginsName b then
    let stop := nameEnd src (src.size - c.index) c.index
    let name := src.slice c.index stop
    let kind := (Mark.keyword? name).elim (Token.Kind.name name) Token.Kind.mark
    .ok (⟨kind, name, c.line⟩, ⟨stop, c.line⟩)
  else
    let plain : Except Fault (Token × Cursor) :=
      match longMark? src c.index with
      | some (m, width) => .ok (⟨.mark m, ByteArray.empty, c.line⟩, ⟨c.index + width, c.line⟩)
      | none =>
        let kind := (Mark.ofByte? b).elim (Token.Kind.stray b) Token.Kind.mark
        .ok (⟨kind, ByteArray.empty, c.line⟩, ⟨c.index + 1, c.line⟩)
    if b == 91 then
      match bracketAt src c.index with
      | .long level => do
        let (value, next) ← longBracket src level "string" c
        let fence := Bytes.replicate level 61
        let spelling := Bytes.single 91 ++ fence ++ Bytes.single 91 ++ value
          ++ Bytes.single 93 ++ fence ++ Bytes.single 93
        .ok (⟨.str value, spelling, next.line⟩, next)
      | .single => plain
      | .broken stop =>
        .error (faultNear "invalid long string delimiter" (src.slice c.index stop) c.line)
    else plain

/-- Skips white space and comments; the first argument bounds the steps. -/
def skipIgnored (src : Bytes) : Nat → Cursor → Except Fault Cursor
  | 0, c => .ok c
  | n + 1, c =>
    let b := src.byteAt c.index
    if src.size ≤ c.index then .ok c
    else if isNewline b then skipIgnored src n (skipNewline src c)
    else if Bytes.isSpace b then skipIgnored src n ⟨c.index + 1, c.line⟩
    else if b == 45 && src.byteAt (c.index + 1) == 45 then
      let start := c.index + 2
      let short : Cursor := ⟨lineEnd src (src.size - start) start, c.line⟩
      if src.byteAt start == 91 then
        match bracketAt src start with
        | .long level =>
          match longBracket src level "comment" ⟨start, c.line⟩ with
          | .ok (_, next) => skipIgnored src n next
          | .error e => .error e
        | _ => skipIgnored src n short
      else skipIgnored src n short
    else .ok c

/-- The tokens from the cursor on, added to those before it.  The first
argument bounds the tokens. -/
def scanFrom (src : Bytes) : Nat → Cursor → Array Token → Array Token
  | 0, _, acc => acc
  | n + 1, c, acc =>
    let next := do
      let c ← skipIgnored src (src.size + 1) c
      tokenAt src c
    match next with
    | .error e => acc.push ⟨.unreadable e.reason, ByteArray.empty, e.line⟩
    | .ok (t, c) =>
      match t.kind with
      | .stop => acc.push t
      | _ => scanFrom src n c (acc.push t)

end Lexer

/-- The tokens of a text.  The last one is the end of the text or the place
where it cannot be read on. -/
def Token.scan (src : Bytes) : Array Token :=
  Lexer.scanFrom src (src.size + 1) ⟨0, 1⟩ #[]

end NpcDialog.Lua
