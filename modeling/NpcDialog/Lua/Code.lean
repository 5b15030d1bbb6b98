import NpcDialog.Lua.Tree

/-!
# Code

What a program text is compiled to: functions over numbered registers, each
with the functions that are written in it.  What only error messages need is
kept apart in a function's notes, so that dropping them changes no run but for
the wording of its faults.

* `Instr` — one instruction.
* `FunctionNotes` — source, lines and names, for error messages only.
* `FunctionCode` — a function: parameters, instructions, constants, inner functions.
* `Chunk` — the function that a whole text is.
* `FunctionCode.AllNamed` — captured variables are known by names of their own.
* `FunctionCode.strip` — a function without its notes.
-/

namespace NpcDialog.Lua

open Bytes (ofText)

/-- Byte strings are compared byte by byte, by the same instance whatever is imported. -/
local instance : DecidableEq Bytes := ByteArray.instDecidableEq

/-- A constant of a function. -/
inductive Const where
  /-- The value of absence. -/
  | nil
  /-- A truth value. -/
  | bool (b : Bool)
  /-- An integer. -/
  | int (n : Int64)
  /-- A float, by its bits. -/
  | float (bits : UInt64)
  /-- A string. -/
  | str (s : Bytes)
  deriving DecidableEq

/-- The constant that a number is. -/
def Const.ofNumber : Number → Const
  | .int n => .int n
  | .float x => .float x.toBits

/-- Are two constants interchangeable?  Unlike in comparisons, an integer and a
float never are. -/
def Const.same : Const → Const → Bool
  | .nil, .nil => true
  | .bool a, .bool b => a == b
  | .int m, .int n => m == n
  | .float x, .float y => x == y
  | .str s, .str t => s == t
  | _, _ => false

/-- The second operand of an instruction. -/
inductive Source where
  /-- A register. -/
  | reg (r : Nat)
  /-- A constant, by its index. -/
  | const (k : Nat)
  /-- A small integer; `asFloat` tells that it was written as a float. -/
  | small (i : Int) (asFloat : Bool)
  deriving DecidableEq

/-- The comparisons of two values. -/
inductive Comparison where
  /-- Equality. -/
  | eq
  /-- Strict order. -/
  | lt
  /-- Order. -/
  | le
  /-- Strict order, operands exchanged. -/
  | gt
  /-- Order, operands exchanged. -/
  | ge
  deriving DecidableEq

/-- An instruction.  Registers are numbered from the frame's base; `none` for a
number of values means as many as there are. -/
inductive Instr where
  /-- Copies a register. -/
  | move (a b : Nat)
  /-- Loads a small integer. -/
  | loadInt (a : Nat) (i : Int)
  /-- Loads a small integral float. -/
  | loadFloat (a : Nat) (i : Int)
  /-- Loads a constant. -/
  | loadConst (a k : Nat)
  /-- Loads falsehood. -/
  | loadFalse (a : Nat)
  /-- Loads falsehood and skips the next instruction. -/
  | loadFalseSkip (a : Nat)
  /-- Loads truth. -/
  | loadTrue (a : Nat)
  /-- Clears the registers from `a` to `last`. -/
  | loadNil (a last : Nat)
  /-- Reads a captured variable. -/
  | getCaptured (a u : Nat)
  /-- Writes a captured variable. -/
  | setCaptured (a u : Nat)
  /-- Reads the named field of a captured table. -/
  | getCapturedField (a u k : Nat)
  /-- Reads a field by a register. -/
  | getIndex (a b c : Nat)
  /-- Reads a field by a small integer. -/
  | getInt (a b i : Nat)
  /-- Reads a named field. -/
  | getField (a b k : Nat)
  /-- Writes the named field of a captured table. -/
  | setCapturedField (u k : Nat) (v : Source)
  /-- Writes a field by a register. -/
  | setIndex (a b : Nat) (v : Source)
  /-- Writes a field by a small integer. -/
  | setInt (a i : Nat) (v : Source)
  /-- Writes a named field. -/
  | setField (a k : Nat) (v : Source)
  /-- Makes a table with room for fields and elements. -/
  | newTable (a fields elements : Nat)
  /-- Puts a method and its object into `a` and the register behind it. -/
  | self (a b : Nat) (key : Source)
  /-- An operator on numbers; `flipped` tells that the second operand was
  written first. -/
  | arith (op : Operator) (a b : Nat) (c : Source) (flipped : Bool)
  /-- Change of sign. -/
  | negate (a b : Nat)
  /-- Bitwise negation. -/
  | complement (a b : Nat)
  /-- Logical negation. -/
  | not (a b : Nat)
  /-- Length. -/
  | length (a b : Nat)
  /-- Joins the `n` registers from `a` on. -/
  | concat (a n : Nat)
  /-- Closes the captured variables from register `a` on. -/
  | close (a : Nat)
  /-- Marks the variable in a register as one to be closed. -/
  | markClose (a : Nat)
  /-- Jumps. -/
  | jump (target : Nat)
  /-- Skips the next instruction unless a comparison comes out as `k`. -/
  | compare (op : Comparison) (a : Nat) (b : Source) (k : Bool)
  /-- Skips the next instruction unless a register's truth is `k`. -/
  | test (a : Nat) (k : Bool)
  /-- Copies `b` to `a` if its truth is `k`, and skips the next instruction
  otherwise. -/
  | testSet (a b : Nat) (k : Bool)
  /-- Calls the function in `a`. -/
  | call (a : Nat) (args results : Option Nat)
  /-- Calls the function in `a` in place of the running one. -/
  | tailCall (a : Nat) (args : Option Nat) (closing : Bool)
  /-- Returns the values from `a` on. -/
  | return (a : Nat) (count : Option Nat) (closing : Bool)
  /-- Steps a numeric loop and jumps back while it goes on. -/
  | forLoop (a target : Nat)
  /-- Prepares a numeric loop, or jumps over it. -/
  | forPrep (a target : Nat)
  /-- Prepares a loop over an iterator. -/
  | iterPrep (a target : Nat)
  /-- Calls an iterator for `n` values. -/
  | iterCall (a n : Nat)
  /-- Jumps back while the iterator gives values. -/
  | iterLoop (a target : Nat)
  /-- Stores the registers behind `a` as the elements after `offset`. -/
  | setList (a : Nat) (count : Option Nat) (offset : Nat)
  /-- Makes a function from the `k`-th inner one. -/
  | closure (a k : Nat)
  /-- Loads extra arguments. -/
  | vararg (a : Nat) (count : Option Nat)
  /-- Sets the extra arguments aside. -/
  | varargPrep (params : Nat)
  deriving DecidableEq

/-- Where a function finds a variable it captures when it is made. -/
structure CaptureSource where
  /-- Is it a register of the enclosing function, or one of its own captured
  variables? -/
  fromRegister : Bool
  /-- The index there. -/
  index : Nat
  deriving DecidableEq

/-- The name of a register and the instructions over which it has it. -/
structure LocalNote where
  /-- The variable's name. -/
  name : Bytes
  /-- The first instruction. -/
  start : Nat
  /-- The instruction behind the last. -/
  stop : Nat
  deriving DecidableEq

/-- What error messages know about a function. -/
structure FunctionNotes where
  /-- The chunk's name, if known. -/
  source : Option Bytes
  /-- The line on which the function begins, zero for a whole text. -/
  lineDefined : Nat
  /-- The line of each instruction. -/
  lines : Array Nat
  /-- Names of registers. -/
  locals : Array LocalNote
  /-- Names of captured variables. -/
  captureNames : Array Bytes
  deriving DecidableEq

/-- Notes that know nothing but where the function began. -/
def FunctionNotes.bare (n : FunctionNotes) : FunctionNotes :=
  ⟨none, n.lineDefined, #[], #[], #[]⟩

/-- A function as the machine runs it, with the functions that are written in
it. -/
structure FunctionCode where
  /-- Number of named parameters. -/
  params : Nat
  /-- Does it take extra arguments? -/
  isVararg : Bool
  /-- Number of registers. -/
  registers : Nat
  /-- Instructions. -/
  code : Array Instr
  /-- Constants. -/
  consts : Array Const
  /-- Captured variables. -/
  captures : Array CaptureSource
  /-- What error messages know about it. -/
  notes : FunctionNotes
  /-- Inner functions. -/
  children : List FunctionCode

/-- Do the notes know each captured variable of the function, by a name of its
own? -/
structure FunctionCode.Named (f : FunctionCode) : Prop where
  /-- There are as many names as variables. -/
  size : f.notes.captureNames.size = f.captures.size
  /-- They are distinct. -/
  distinct : f.notes.captureNames.toList.Nodup
  /-- They have no zero bytes. -/
  plain : ∀ n ∈ f.notes.captureNames, n.beforeZero = n

/-- Is this so of a function and of all inner ones? -/
inductive FunctionCode.AllNamed : FunctionCode → Prop where
  /-- Of the function itself, and in the same way of each inner one. -/
  | intro {f : FunctionCode} (own : f.Named) (inner : ∀ g ∈ f.children, AllNamed g) : AllNamed f

/-- What a text is compiled to: the function that the whole text is. -/
abbrev Chunk := FunctionCode

mutual

/-- The function without its notes. -/
def FunctionCode.strip : FunctionCode → FunctionCode
  | ⟨params, isVararg, registers, code, consts, captures, notes, children⟩ =>
    ⟨params, isVararg, registers, code, consts, captures, notes.bare, FunctionCode.stripAll children⟩

/-- Functions without their notes. -/
def FunctionCode.stripAll : List FunctionCode → List FunctionCode
  | [] => []
  | f :: rest => f.strip :: FunctionCode.stripAll rest

end

/-- A chunk's name as messages show it: a name behind `=` as it stands, a file
behind `@`, and otherwise the beginning of the text itself.  Long names are
cut to fit sixty bytes. -/
def chunkLabel (source : Bytes) : Bytes :=
  let room := 60
  let dots := ofText "..."
  let body := source.slice 1 source.size
  if source.byteAt 0 == 61 then
    if source.size ≤ room then body else source.slice 1 room
  else if source.byteAt 0 == 64 then
    if source.size ≤ room then body
    else dots ++ body.slice (body.size - (room - 1 - dots.size)) body.size
  else
    let opening := ofText "[string \""
    let closing := ofText "\"]"
    let space := room - (opening.size + dots.size + closing.size) - 1
    match source.indexOf? 10 0 with
    | none =>
      if source.size < space then opening ++ source ++ closing
      else opening ++ source.slice 0 space ++ dots ++ closing
    | some i => opening ++ source.slice 0 (min i space) ++ dots ++ closing

end NpcDialog.Lua
