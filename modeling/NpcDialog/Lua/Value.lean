import NpcDialog.Lua.Builtin
import NpcDialog.Lua.Numeral

/-!
# Values

The dynamic values of a running program.  Values with an identity of their own
are references into the heap; a handle of the conversation is a value that says
what it stands for and nothing else.

* `Value` — a value.
* `Value.same` — equality that no metamethod can change.
* `Value.typeName` — the name of a value's type.
-/

namespace NpcDialog.Lua

open Bytes (ofText)

/-- A value of a running program. -/
inductive Value where
  /-- The value of absence. -/
  | nil
  /-- A truth value. -/
  | bool (b : Bool)
  /-- An integer. -/
  | int (n : Int64)
  /-- A float. -/
  | float (x : Float)
  /-- A string. -/
  | str (s : Bytes)
  /-- A table. -/
  | table (id : Nat)
  /-- A function of the program. -/
  | closure (id : Nat)
  /-- A built-in function. -/
  | builtin (b : Builtin)
  /-- A built-in function with values of its own. -/
  | bound (id : Nat)
  /-- A coroutine. -/
  | thread (id : Nat)
  /-- A handle of the conversation. -/
  | handle (h : Handle)
  /-- An open or closed file. -/
  | file (id : Nat)

instance : Inhabited Value := ⟨.nil⟩

namespace Value

/-- The value of a number. -/
@[inline] def ofNumber : Number → Value
  | .int n => .int n
  | .float x => .float x

/-- The number a value is. -/
@[inline] def number? : Value → Option Number
  | .int n => some (.int n)
  | .float x => some (.float x)
  | _ => none

/-- A string value from a text. -/
def ofText (s : String) : Value := .str (Bytes.ofText s)

/-- An integer value from a natural number. -/
def ofNat (n : Nat) : Value := .int (Int64.ofNat n)

/-- Does a value count as true? -/
@[inline] def isTrue : Value → Bool
  | .nil => false
  | .bool b => b
  | _ => true

/-- Is the value that of absence? -/
@[inline] def isNil : Value → Bool
  | .nil => true
  | _ => false

/-- Is the value a function? -/
def isFunction : Value → Bool
  | .closure _ | .builtin _ | .bound _ => true
  | _ => false

/-- Are two values equal, apart from metamethods?  Numbers are compared by
value, whatever their kind. -/
def same : Value → Value → Bool
  | .nil, .nil => true
  | .bool a, .bool b => a == b
  | .int m, .int n => m == n
  | .float x, .float y => x == y
  | .int m, .float y => Binary64.toInt64? y .exact == some m
  | .float x, .int n => Binary64.toInt64? x .exact == some n
  | .str s, .str t => s == t
  | .table i, .table j => i == j
  | .closure i, .closure j => i == j
  | .builtin a, .builtin b => a == b
  | .bound i, .bound j => i == j
  | .thread i, .thread j => i == j
  | .handle a, .handle b => a == b
  | .file i, .file j => i == j
  | _, _ => false

/-- The name of a value's type. -/
def typeName : Value → String
  | .nil => "nil"
  | .bool _ => "boolean"
  | .int _ | .float _ => "number"
  | .str _ => "string"
  | .table _ => "table"
  | .closure _ | .builtin _ | .bound _ => "function"
  | .thread _ => "thread"
  | .handle _ | .file _ => "userdata"

/-- The integer that a number or a numeral stands for. -/
def toInteger? : Value → Option Int64
  | .int n => some n
  | .float x => Binary64.toInt64? x .exact
  | .str s =>
    match Numeral.read? s with
    | some (.int n) => some n
    | some (.float x) => Binary64.toInt64? x .exact
    | none => none
  | _ => none

/-- The number that a number or a numeral stands for. -/
def toNumber? : Value → Option Number
  | .int n => some (.int n)
  | .float x => some (.float x)
  | .str s => Numeral.read? s
  | _ => none

end Value

end NpcDialog.Lua
