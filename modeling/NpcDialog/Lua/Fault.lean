import NpcDialog.Lua.Token
import NpcDialog.Lua.Store

/-!
# Faults

Why a run stops.  A fault that the machine itself finds is kept as a cause:
what was tried, on which operand, at which instruction.  It becomes text only
when somebody asks for it, and only then are the notes on the code looked at.

* `Position` — an instruction of a function.
* `Origin` — where an operand came from.
* `Fault` — a cause.
* `LibFault` — a cause found by a built-in function, which does not know where
  it was called.
-/

namespace NpcDialog.Lua

/-- An instruction of a function. -/
structure Position where
  /-- The function. -/
  function : FunctionCode
  /-- Index of the instruction. -/
  pc : Nat

/-- Where an operand came from. -/
inductive Origin where
  /-- A register. -/
  | register (r : Nat)
  /-- A captured variable. -/
  | captured (u : Nat)
  /-- Neither. -/
  | elsewhere

/-- Why a run stops. -/
inductive Fault where
  /-- A value was raised. -/
  | value (v : Value)
  /-- A message of the machine about an instruction. -/
  | message (place : Option Position) (text : Bytes)
  /-- A message of a built-in function; the place goes in front if its line is
  known. -/
  | located (place : Option Position) (text : Bytes)
  /-- A message about an operand: the text in front of its name and behind. -/
  | operand (place : Option Position) (before : Bytes) (origin : Origin) (behind : Bytes)
  /-- A call of a value that is no function: its type and where it came from. -/
  | call (place : Option Position) (typeName : Bytes) (origin : Origin)
  /-- A variable that is to be closed holds something that cannot be. -/
  | notClosable (place : Option Position) (register : Nat)
  /-- A wrong argument: where the function was called, its global name if it
  has one, the argument's number and what is wrong with it. -/
  | argument (caller : Option Position) (globalName : Option Bytes) (number : Nat) (extra : Bytes)
  /-- There is not enough memory. -/
  | memory
  /-- Too many faults in the handling of a fault. -/
  | handling
  /-- A text is nested too deeply to be compiled. -/
  | nesting
  /-- The run cannot go on: its budget of steps is spent, or the process has
  ended. -/
  | exhausted

/-- Where in the code a fault was raised, if its message tells. -/
def Fault.place? : Fault → Option Position
  | .message place _ | .located place _ | .operand place _ _ _ | .call place _ _
  | .notClosable place _ | .argument place _ _ _ => place
  | _ => none

/-- Does the message of a fault tell where in the code it was raised? -/
def Fault.isPlaced (f : Fault) : Bool := f.place?.isSome

/-- The value that was raised, if the fault is one that a program raised itself. -/
def Fault.raised? : Fault → Option Value
  | .value v => some v
  | _ => none

/-- Why a built-in function fails. -/
inductive LibFault where
  /-- A value is raised. -/
  | value (v : Value)
  /-- A message; the place of the function `level` calls up goes in front, and
  level zero means no place. -/
  | message (level : Nat) (text : Bytes)
  /-- A wrong argument: its number and what is wrong with it. -/
  | argument (number : Nat) (extra : Bytes)
  /-- There is not enough memory. -/
  | memory
  /-- A text is nested too deeply to be compiled. -/
  | nesting
  /-- Nothing can go on. -/
  | exhausted

end NpcDialog.Lua
