import NpcDialog.Lua.Routine

/-!
# Arguments

How a built-in function looks at its arguments, and what it says when one is
not what it expects.  Arguments are counted from one.

* `Args` — the arguments of a call.
* `Args.integer`, `Args.text`, … — one argument of a kind.
* `Args.integerOr`, `Args.textOr`, … — one that may be left out.
-/

namespace NpcDialog.Lua

open Bytes (ofText)

/-- The arguments of a call. -/
structure Args where
  /-- Their values. -/
  values : Array Value

namespace Args

/-- The value of an argument, that of absence if it was left out. -/
def get (a : Args) (n : Nat) : Value := a.values.getD (n - 1) .nil

/-- The number of arguments. -/
def size (a : Args) : Nat := a.values.size

/-- Was an argument left out? -/
def isMissing (a : Args) (n : Nat) : Bool := decide (a.values.size < n)

/-- Was an argument left out or given as the value of absence? -/
def isAbsent (a : Args) (n : Nat) : Bool := (a.get n).isNil

/-- The arguments from the `n`-th on. -/
def from_ (a : Args) (n : Nat) : Array Value := a.values.extract (n - 1) a.values.size

/-- Fails because of an argument. -/
def refuse {α : Type} (n : Nat) (extra : String) : Proc α := Proc.fail (.argument n (ofText extra))

/-- Fails because an argument is not of the kind that is expected. -/
def mismatch {α : Type} (a : Args) (n : Nat) (expected : String) : Proc α := do
  let v := a.get n
  let actual ← Proc.read fun h =>
    if a.isMissing n then ofText "no value"
    else
      match h.metamethod v "__name" with
      | .str s => s
      | _ => ofText v.typeName
  Proc.fail (.argument n (ofText expected ++ ofText " expected, got " ++ actual))

/-- An argument that must not be left out. -/
def any (a : Args) (n : Nat) : Proc Value :=
  if a.isMissing n then refuse n "value expected" else pure (a.get n)

/-- An integer, or something that stands for one. -/
def integer (a : Args) (n : Nat) : Proc Int64 :=
  let v := a.get n
  match v.toInteger? with
  | some i => pure i
  | none =>
    if v.toNumber?.isSome then refuse n "number has no integer representation"
    else a.mismatch n "number"

/-- An integer that may be left out. -/
def integerOr (a : Args) (n : Nat) (other : Int64) : Proc Int64 :=
  if a.isAbsent n then pure other else a.integer n

/-- A number, or a numeral. -/
def number (a : Args) (n : Nat) : Proc Number :=
  match (a.get n).toNumber? with
  | some x => pure x
  | none => a.mismatch n "number"

/-- A number as a float. -/
def float (a : Args) (n : Nat) : Proc Float := do return (← a.number n).toFloat

/-- The text that a string or a number is. -/
def textOf? : Value → Option Bytes
  | .str s => some s
  | .int n => some (Number.toText (.int n))
  | .float x => some (Number.toText (.float x))
  | _ => none

/-- A string, or a number as its text. -/
def text (a : Args) (n : Nat) : Proc Bytes :=
  match textOf? (a.get n) with
  | some s => pure s
  | none => a.mismatch n "string"

/-- A string that may be left out. -/
def text? (a : Args) (n : Nat) : Proc (Option Bytes) := do
  if a.isAbsent n then return none else return some (← a.text n)

/-- A string that may be left out. -/
def textOr (a : Args) (n : Nat) (other : Bytes) : Proc Bytes := do return (← a.text? n).getD other

/-- A table. -/
def table (a : Args) (n : Nat) : Proc Nat :=
  match a.get n with
  | .table id => pure id
  | _ => a.mismatch n "table"

/-- A function. -/
def function (a : Args) (n : Nat) : Proc Value :=
  let f := a.get n
  if f.isFunction then pure f else a.mismatch n "function"

/-- One of several words. -/
def option (a : Args) (n : Nat) (words : List String) (other : Option String) : Proc String := do
  let s ← match other with
    | some w => a.textOr n (ofText w)
    | none => a.text n
  match words.find? fun w => ofText w == s with
  | some w => return w
  | none => Proc.fail (.argument n (ofText "invalid option " ++ quoted s.beforeZero))

end Args

end NpcDialog.Lua
