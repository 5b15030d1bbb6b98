import NpcDialog.Toml.Fault

/-!
# Parsers

Functions that read a piece of a text from a position on.  A parser that fails
says how far it got; the failure is final if no alternative is to be tried any
more.  What was expected is noted on the way out, from the inside to the
outside.

* `Complaint` — what is noted about a failure.
* `Reply` — what a parser comes to.
* `Parser` — a parser, with `orElse`, `optional`, `many`, `separated`.
* `Parser.cut`, `Parser.labelled`, `Parser.expecting` — what failures say.
-/

namespace NpcDialog.Toml

/-- What is noted about a failure. -/
structure Complaint where
  /-- What could not be read; the innermost name counts. -/
  label : Option String
  /-- What could stand there instead. -/
  expected : List String
  /-- What is wrong with something that could be read. -/
  cause : Option String
  deriving DecidableEq

namespace Complaint

/-- Nothing is noted. -/
def empty : Complaint := ⟨none, [], none⟩

/-- Only a cause is noted. -/
def ofCause (text : String) : Complaint := ⟨none, [], some text⟩

/-- The complaint as text. -/
def text (c : Complaint) : String :=
  let label := (c.label.map fun l => s!"invalid {l}").toList
  let list := ", ".intercalate c.expected
  let expected := if c.expected.isEmpty then [] else [s!"expected {list}"]
  "\n".intercalate (label ++ expected ++ c.cause.toList)

end Complaint

/-- What a parser comes to. -/
inductive Reply (α : Type) where
  /-- A value, and where it ends. -/
  | done (a : α) (pos : Nat)
  /-- A failure, and where it happened. -/
  | fail (final : Bool) (pos : Nat) (why : Complaint)

/-- A parser. -/
def Parser (α : Type) : Type := Bytes → Nat → Reply α

namespace Parser

instance : Monad Parser where
  pure a := fun _ i => .done a i
  bind p f := fun b i =>
    match p b i with
    | .done a j => f a b j
    | .fail final j why => .fail final j why

variable {α β : Type}

/-- Fails. -/
def refuse : Parser α := fun _ i => .fail false i .empty

/-- Fails for good and for a reason. -/
def refuseFinally (cause : String) : Parser α := fun _ i => .fail true i (.ofCause cause)

/-- The position. -/
def position : Parser Nat := fun _ i => .done i i

/-- The next byte, which stays. -/
def peek? : Parser (Option UInt8) := fun b i => .done (if i < b.size then some (b.byteAt i) else none) i

/-- The byte behind the next one, which stays. -/
def peekSecond? : Parser (Option UInt8) := fun b i =>
  .done (if i + 1 < b.size then some (b.byteAt (i + 1)) else none) i

/-- The next byte. -/
def any : Parser UInt8 := fun b i => if i < b.size then .done (b.byteAt i) (i + 1) else .fail false i .empty

/-- The next byte if it is of a kind. -/
def oneOf (p : UInt8 → Bool) : Parser UInt8 := fun b i =>
  if i < b.size && p (b.byteAt i) then .done (b.byteAt i) (i + 1) else .fail false i .empty

/-- A given byte. -/
def byte (c : UInt8) : Parser UInt8 := oneOf (· == c)

/-- Given bytes. -/
def literal (s : Bytes) : Parser Unit := fun b i =>
  if b.holdsAt s i then .done () (i + s.size) else .fail false i .empty

/-- The end of the text. -/
def finish : Parser Unit := fun b i => if b.size ≤ i then .done () i else .fail false i .empty

/-- The number of bytes of a kind from `i` on, `n` at most. -/
def countWhile (p : UInt8 → Bool) (b : Bytes) : Nat → Nat → Nat
  | 0, _ => 0
  | n + 1, i => if p (b.byteAt i) then countWhile p b n (i + 1) + 1 else 0

/-- The bytes of a kind that follow, `most` at most. -/
def takeUpTo (most : Nat) (p : UInt8 → Bool) : Parser Bytes := fun b i =>
  let j := i + countWhile p b (min most (b.size - i)) i
  .done (b.slice i j) j

/-- All bytes of a kind that follow. -/
def takeWhile (p : UInt8 → Bool) : Parser Bytes := fun b i => takeUpTo (b.size - i) p b i

/-- All bytes of a kind that follow, one at least. -/
def takeSome (p : UInt8 → Bool) : Parser Bytes := fun b i =>
  match takeWhile p b i with
  | .done s j => if s.size == 0 then .fail false i .empty else .done s j
  | r => r

/-- An alternative for a failure that is not final. -/
def orElse (p q : Parser α) : Parser α := fun b i =>
  match p b i with
  | .fail false _ _ => q b i
  | r => r

/-- Nothing in place of a failure that is not final. -/
def optional (p : Parser α) : Parser (Option α) := fun b i =>
  match p b i with
  | .done a j => .done (some a) j
  | .fail false _ _ => .done none i
  | .fail true j why => .fail true j why

/-- Makes failures final. -/
def cut (p : Parser α) : Parser α := fun b i =>
  match p b i with
  | .fail _ j why => .fail true j why
  | r => r

/-- Names what a parser reads, for its failures. -/
def labelled (label : String) (p : Parser α) : Parser α := fun b i =>
  match p b i with
  | .fail final j why => .fail final j { why with label := why.label.orElse fun _ => some label }
  | r => r

/-- Notes what could stand where a parser fails. -/
def expecting (what : String) (p : Parser α) : Parser α := fun b i =>
  match p b i with
  | .fail final j why => .fail final j { why with expected := why.expected ++ [what] }
  | r => r

/-- Notes several things that could stand where a parser fails. -/
def expectingAll (what : List String) (p : Parser α) : Parser α :=
  what.foldl (fun p w => expecting w p) p

/-- Judges a value; what is wrong with it is a failure at its beginning. -/
def judged (p : Parser α) (f : α → Except Complaint β) : Parser β := fun b i =>
  match p b i with
  | .done a j =>
    match f a with
    | .ok x => .done x j
    | .error why => .fail false i why
  | .fail final j why => .fail final j why

/-- Judges a value for good. -/
def judgedFinally (p : Parser α) (f : α → Except Complaint β) : Parser β := fun b i =>
  match p b i with
  | .done a j =>
    match f a with
    | .ok x => .done x j
    | .error why => .fail true i why
  | .fail final j why => .fail final j why

/-- The bytes that a parser reads. -/
def taken (p : Parser α) : Parser Bytes := fun b i =>
  match p b i with
  | .done _ j => .done (b.slice i j) j
  | .fail final j why => .fail final j why

/-- A value with its span. -/
def spanned (p : Parser α) : Parser (α × Span) := fun b i =>
  match p b i with
  | .done a j => .done (a, ⟨i, j⟩) j
  | .fail final j why => .fail final j why

/-- A parser whose text stays. -/
def ahead (p : Parser α) : Parser α := fun b i =>
  match p b i with
  | .done a _ => .done a i
  | r => r

/-- Repeats a parser until it fails or reads nothing, `n` times at most. -/
def manyAux (p : Parser α) (b : Bytes) : Nat → Nat → List α → Reply (List α)
  | 0, i, acc => .done acc.reverse i
  | n + 1, i, acc =>
    match p b i with
    | .done a j => if i < j then manyAux p b n j (a :: acc) else .done acc.reverse i
    | .fail false _ _ => .done acc.reverse i
    | .fail true j why => .fail true j why

/-- A parser again and again. -/
def many (p : Parser α) : Parser (List α) := fun b i => manyAux p b (b.size - i) i []

/-- A parser again and again, with something in between.  A separator that
nothing follows stays. -/
def separated (p : Parser α) (separator : Parser β) : Parser (List α) := do
  let first ← p
  let rest ← many do
    let _ ← separator
    p
  return first :: rest

/-- Like `separated`, or nothing at all. -/
def separatedOrNone (p : Parser α) (separator : Parser β) : Parser (List α) := do
  return (← optional (separated p separator)).getD []

end Parser

end NpcDialog.Toml
