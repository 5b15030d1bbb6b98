import NpcDialog.Bytes

/-!
# Callbacks and handles

What a running script can ask of the world outside, and the handles by which
it is known there.  A script can pass handles around but cannot look into them
and cannot make one.

* `Callback` — the operations a script can call.
* `Handle` — the values that stand for a conversation.
* `ProcessUse` — what a script does with the process it runs in.
-/

namespace NpcDialog

/-- An operation that a script can call. -/
inductive Callback where
  /-- Shows a message. -/
  | message
  /-- Lets the player advance, and suspends the script until then. -/
  | advance
  /-- Closes the dialog. -/
  | close
  deriving DecidableEq

/-- The callbacks of a script, in the order in which they are installed. -/
def Callback.all : List Callback := [.message, .advance, .close]

/-- The global name of a callback. -/
def Callback.name : Callback → String
  | .message => "mes"
  | .advance => "next"
  | .close => "close"

/-- The name of a callback in the list of constants. -/
def Callback.label : Callback → String
  | .message => "Message"
  | .advance => "Advance"
  | .close => "Close"

/-- Does a successful call suspend the script? -/
def Callback.suspends : Callback → Bool
  | .advance => true
  | _ => false

/-- A value that stands for one side of a script's conversation. -/
inductive Handle where
  /-- The context the script runs in. -/
  | context
  /-- The session the script talks to. -/
  | session
  /-- The entity the script belongs to. -/
  | entity
  deriving DecidableEq

/-- All handles, in the order in which they are bound. -/
def Handle.all : List Handle := [.context, .session, .entity]

/-- The reserved global that holds a handle. -/
def Handle.globalName : Handle → String
  | .context => "__interaction__"
  | .session => "__session__"
  | .entity => "__entity__"

/-- The type name of a handle in error messages. -/
def Handle.typeName : Handle → String
  | .context => "ContextHandle"
  | .session => "SessionHandle"
  | .entity => "EntityHandle"

/-- Byte strings are compared byte by byte, by the same instance whatever is imported. -/
local instance : DecidableEq Bytes := ByteArray.instDecidableEq

/-- Something that a script does with the process it runs in, past all
callbacks. -/
inductive ProcessUse where
  /-- It writes to the standard output. -/
  | prints (text : Bytes)
  /-- It reads a standard stream or goes to another place of it, or it writes to the
  one for errors. -/
  | streams
  /-- It has a command run by the system. -/
  | runs (command : Bytes)
  /-- It ends the process. -/
  | exits (code : Nat)
  deriving DecidableEq

end NpcDialog
