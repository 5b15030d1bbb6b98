import NpcDialog.Lua.Numeral

/-!
# Tokens

The words a program text falls into.  A token remembers the line on which it
ends and, where it was written by the author of the text, its spelling: both
appear in error messages.

* `Mark` — reserved words and operators, with `Mark.spelling`.
* `Token` — a mark, a name, a string, a number, the end, or the place where the
  text stops being readable.
* `Token.nearSuffix` — how an error message quotes a token.
-/

namespace NpcDialog.Lua

open Bytes (ofText)

/-- A reserved word or an operator. -/
inductive Mark where
  /-- `and` -/
  | kwAnd
  /-- `break` -/
  | kwBreak
  /-- `do` -/
  | kwDo
  /-- `else` -/
  | kwElse
  /-- `elseif` -/
  | kwElseif
  /-- `end` -/
  | kwEnd
  /-- `false` -/
  | kwFalse
  /-- `for` -/
  | kwFor
  /-- `function` -/
  | kwFunction
  /-- `goto` -/
  | kwGoto
  /-- `if` -/
  | kwIf
  /-- `in` -/
  | kwIn
  /-- `local` -/
  | kwLocal
  /-- `nil` -/
  | kwNil
  /-- `not` -/
  | kwNot
  /-- `or` -/
  | kwOr
  /-- `repeat` -/
  | kwRepeat
  /-- `return` -/
  | kwReturn
  /-- `then` -/
  | kwThen
  /-- `true` -/
  | kwTrue
  /-- `until` -/
  | kwUntil
  /-- `while` -/
  | kwWhile
  /-- `//` -/
  | doubleSlash
  /-- `..` -/
  | doubleDot
  /-- `...` -/
  | ellipsis
  /-- `==` -/
  | equals
  /-- `>=` -/
  | atLeast
  /-- `<=` -/
  | atMost
  /-- `~=` -/
  | differs
  /-- `<<` -/
  | shiftLeft
  /-- `>>` -/
  | shiftRight
  /-- `::` -/
  | doubleColon
  /-- `+` -/
  | plus
  /-- `-` -/
  | minus
  /-- `*` -/
  | star
  /-- `/` -/
  | slash
  /-- `%` -/
  | percent
  /-- `^` -/
  | caret
  /-- `#` -/
  | hash
  /-- `&` -/
  | ampersand
  /-- `~` -/
  | tilde
  /-- `|` -/
  | bar
  /-- `<` -/
  | less
  /-- `>` -/
  | greater
  /-- `=` -/
  | assign
  /-- `(` -/
  | openParen
  /-- `)` -/
  | closeParen
  /-- `[` -/
  | openBracket
  /-- `]` -/
  | closeBracket
  /-- An opening brace. -/
  | openBrace
  /-- A closing brace. -/
  | closeBrace
  /-- `;` -/
  | semicolon
  /-- `:` -/
  | colon
  /-- `,` -/
  | comma
  /-- `.` -/
  | dot
  deriving DecidableEq

/-- How a mark is written. -/
def Mark.spelling : Mark → String
  | .kwAnd => "and"
  | .kwBreak => "break"
  | .kwDo => "do"
  | .kwElse => "else"
  | .kwElseif => "elseif"
  | .kwEnd => "end"
  | .kwFalse => "false"
  | .kwFor => "for"
  | .kwFunction => "function"
  | .kwGoto => "goto"
  | .kwIf => "if"
  | .kwIn => "in"
  | .kwLocal => "local"
  | .kwNil => "nil"
  | .kwNot => "not"
  | .kwOr => "or"
  | .kwRepeat => "repeat"
  | .kwReturn => "return"
  | .kwThen => "then"
  | .kwTrue => "true"
  | .kwUntil => "until"
  | .kwWhile => "while"
  | .doubleSlash => "//"
  | .doubleDot => ".."
  | .ellipsis => "..."
  | .equals => "=="
  | .atLeast => ">="
  | .atMost => "<="
  | .differs => "~="
  | .shiftLeft => "<<"
  | .shiftRight => ">>"
  | .doubleColon => "::"
  | .plus => "+"
  | .minus => "-"
  | .star => "*"
  | .slash => "/"
  | .percent => "%"
  | .caret => "^"
  | .hash => "#"
  | .ampersand => "&"
  | .tilde => "~"
  | .bar => "|"
  | .less => "<"
  | .greater => ">"
  | .assign => "="
  | .openParen => "("
  | .closeParen => ")"
  | .openBracket => "["
  | .closeBracket => "]"
  | .openBrace => "\x7b"
  | .closeBrace => "\x7d"
  | .semicolon => ";"
  | .colon => ":"
  | .comma => ","
  | .dot => "."

/-- The reserved words. -/
def Mark.keywords : List Mark :=
  [.kwAnd, .kwBreak, .kwDo, .kwElse, .kwElseif, .kwEnd, .kwFalse, .kwFor, .kwFunction, .kwGoto,
    .kwIf, .kwIn, .kwLocal, .kwNil, .kwNot, .kwOr, .kwRepeat, .kwReturn, .kwThen, .kwTrue,
    .kwUntil, .kwWhile]

/-- The operators of one byte. -/
def Mark.ofByte? (c : UInt8) : Option Mark :=
  match Char.ofNat c.toNat with
  | '+' => some .plus
  | '-' => some .minus
  | '*' => some .star
  | '/' => some .slash
  | '%' => some .percent
  | '^' => some .caret
  | '#' => some .hash
  | '&' => some .ampersand
  | '~' => some .tilde
  | '|' => some .bar
  | '<' => some .less
  | '>' => some .greater
  | '=' => some .assign
  | '(' => some .openParen
  | ')' => some .closeParen
  | '[' => some .openBracket
  | ']' => some .closeBracket
  | '\x7b' => some .openBrace
  | '\x7d' => some .closeBrace
  | ';' => some .semicolon
  | ':' => some .colon
  | ',' => some .comma
  | '.' => some .dot
  | _ => none

/-- The reserved word with a given spelling. -/
def Mark.keyword? (name : Bytes) : Option Mark :=
  Mark.keywords.find? fun m => ofText m.spelling == name

/-- What a token is. -/
inductive Token.Kind where
  /-- A reserved word or operator. -/
  | mark (m : Mark)
  /-- A name. -/
  | name (s : Bytes)
  /-- A string literal with its value. -/
  | str (s : Bytes)
  /-- A number literal with its value. -/
  | number (n : Number)
  /-- A byte that begins no token. -/
  | stray (c : UInt8)
  /-- The end of the text. -/
  | stop
  /-- The text cannot be read on from here, for the reason given. -/
  | unreadable (reason : Bytes)

/-- A token with its spelling, where that is the author's, and the line on
which it ends. -/
structure Token where
  /-- What the token is. -/
  kind : Token.Kind
  /-- The spelling of a name, string or number. -/
  spelling : Bytes
  /-- The line on which the token ends. -/
  line : Nat

/-- A text in single quotes. -/
def quoted (b : Bytes) : Bytes := Bytes.single 39 ++ b ++ Bytes.single 39

/-- How an error message names a mark that was expected. -/
def Mark.quotedText (m : Mark) : Bytes := quoted (ofText m.spelling)

/-- How an error message quotes a token, if it does. -/
def Token.nearText? (t : Token) : Option Bytes :=
  match t.kind with
  | .mark m => some m.quotedText
  | .name _ | .str _ | .number _ => some (quoted t.spelling.beforeZero)
  | .stray c =>
    if c == 0 then none
    else if Bytes.isPrintable c then some (quoted (Bytes.single c))
    else some (ofText "'<\\" ++ Bytes.ofNat c.toNat ++ ofText ">'")
  | .stop | .unreadable _ => some (ofText "<eof>")

/-- What an error message says about the token it was found at. -/
def Token.nearSuffix (t : Token) : Bytes :=
  t.nearText?.elim ByteArray.empty fun text => ofText " near " ++ text

end NpcDialog.Lua
