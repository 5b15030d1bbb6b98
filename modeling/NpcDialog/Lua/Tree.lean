import NpcDialog.Lua.Arith

/-!
# Program trees

The shape of a program text.  A tree keeps every token that decides something,
so that walking it visits the tokens of the text one by one and in order; that
is what line numbers and error positions rest on.  A text that breaks a rule
still has a tree, which ends in the fault: whoever walks the tree meets the
problems of a text in the order in which they stand there.

* `ChunkFault` — why a text is no program.
* `Expr`, `Arguments`, `Item` — expressions, call arguments, table fields.
* `Body` — parameters and block of a function.
* `Stat`, `Clause` — statements.
-/

namespace NpcDialog.Lua

/-- Why a text is no program. -/
inductive ChunkFault where
  /-- A message about a line. -/
  | message (line : Nat) (text : Bytes)
  /-- The text is nested too deeply. -/
  | nesting

/-- The operators with one operand. -/
inductive UnaryOperator where
  /-- Change of sign. -/
  | negate
  /-- Logical negation. -/
  | not
  /-- Length. -/
  | length
  /-- Bitwise negation. -/
  | complement
  deriving DecidableEq

/-- The operators with two operands. -/
inductive BinaryOperator where
  /-- An operator on numbers. -/
  | arith (op : Operator)
  /-- Concatenation. -/
  | concat
  /-- Equality. -/
  | eq
  /-- Inequality. -/
  | ne
  /-- Strict order. -/
  | lt
  /-- Order. -/
  | le
  /-- Strict order, operands exchanged. -/
  | gt
  /-- Order, operands exchanged. -/
  | ge
  /-- Logical conjunction. -/
  | and
  /-- Logical disjunction. -/
  | or
  deriving DecidableEq

/-- What may be said about a local variable at its declaration. -/
inductive Attribute where
  /-- Nothing. -/
  | regular
  /-- It cannot be assigned. -/
  | const
  /-- It cannot be assigned and is closed when it goes out of scope. -/
  | close
  deriving DecidableEq

mutual

/-- An expression. -/
inductive Expr where
  /-- The value of absence. -/
  | nil
  /-- Truth. -/
  | true
  /-- Falsehood. -/
  | false
  /-- The extra arguments of the function. -/
  | vararg
  /-- A number. -/
  | number (n : Number)
  /-- A string. -/
  | str (s : Bytes)
  /-- A function. -/
  | function (body : Body)
  /-- A table with its fields; `trailing` tells of a separator behind the last. -/
  | table (items : List Item) (trailing : Bool)
  /-- A variable. -/
  | name (n : Bytes)
  /-- An expression in parentheses. -/
  | paren (e : Expr)
  /-- A field by name. -/
  | field (e : Expr) (name : Bytes)
  /-- A field by value. -/
  | index (e : Expr) (key : Expr)
  /-- A call. -/
  | call (e : Expr) (args : Arguments)
  /-- A call of a method. -/
  | method (e : Expr) (name : Bytes) (args : Arguments)
  /-- An operator with one operand. -/
  | unary (op : UnaryOperator) (e : Expr)
  /-- An operator with two operands. -/
  | binary (op : BinaryOperator) (left right : Expr)
  /-- The text breaks a rule here. -/
  | malformed (fault : ChunkFault)
  /-- The text breaks a rule behind this expression. -/
  | broken (e : Expr) (fault : ChunkFault)

/-- The arguments of a call. -/
inductive Arguments where
  /-- A list in parentheses. -/
  | parens (es : List Expr)
  /-- One string. -/
  | str (s : Bytes)
  /-- One table. -/
  | table (items : List Item) (trailing : Bool)
  /-- The text breaks a rule here. -/
  | malformed (fault : ChunkFault)

/-- A field in a table expression. -/
inductive Item where
  /-- The next element. -/
  | positional (e : Expr)
  /-- A field by name. -/
  | named (name : Bytes) (e : Expr)
  /-- A field by value. -/
  | keyed (key : Expr) (e : Expr)

/-- A function's parameters and block. -/
inductive Body where
  /-- The parts of a function. -/
  | mk (params : List Bytes) (isVararg : Bool) (block : List Stat)

/-- A statement. -/
inductive Stat where
  /-- A semicolon. -/
  | empty
  /-- Local variables with the values after `=`, if that is there. -/
  | «local» (names : List (Bytes × Attribute)) (values : Option (List Expr))
  /-- An assignment to one or more places. -/
  | assign (targets : List Expr) (values : List Expr)
  /-- A call whose results are dropped. -/
  | call (e : Expr)
  /-- A block of its own. -/
  | block (body : List Stat)
  /-- A loop with the condition in front. -/
  | while (cond : Expr) (body : List Stat)
  /-- A loop with the condition behind. -/
  | repeat (body : List Stat) (cond : Expr)
  /-- Alternatives. -/
  | ite (clauses : List Clause) (otherwise : Option (List Stat))
  /-- A loop over an arithmetic progression. -/
  | numericFor (name : Bytes) (first last : Expr) (step : Option Expr) (body : List Stat)
  /-- A loop over what an iterator gives. -/
  | genericFor (names : List Bytes) (values : List Expr) (body : List Stat)
  /-- A function stored in a variable, a field or a method. -/
  | function (name : Bytes) (fields : List Bytes) (method : Option Bytes) (body : Body)
  /-- A local function. -/
  | localFunction (name : Bytes) (body : Body)
  /-- The end of a function; `semicolon` tells of one behind it. -/
  | return (values : List Expr) (semicolon : Bool)
  /-- The end of a loop. -/
  | break
  /-- A jump. -/
  | goto (label : Bytes)
  /-- A label with the empty statements and labels right behind it; `last` tells
  whether nothing else follows in the block. -/
  | label (name : Bytes) (following : List Stat) (last : Bool)
  /-- The text breaks a rule here. -/
  | malformed (fault : ChunkFault)

/-- A condition and the block it guards. -/
inductive Clause where
  /-- The parts of an alternative. -/
  | mk (cond : Expr) (body : List Stat)

end

end NpcDialog.Lua
