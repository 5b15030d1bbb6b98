import NpcDialog.Lua.Machine.Step

/-!
# Failures

What the host says when a program that it started does not come to its end.  A
fault that was raised in a call by the host carries a trace of the calls; only
the head of the trace is kept, as the trace itself says where the program's
functions lie and nothing that a reader of messages could rely on.

* `Failure` — why the host's call came to nothing.
* `Failure.text` — the message.
* `upToTrace` — a text up to the head of a trace.
-/

namespace NpcDialog

open Lua

/-- The words behind which a trace begins. -/
def traceHead : String := "\nstack traceback:"

/-- Does a list of characters begin with another? -/
def startsWithChars : List Char → List Char → Bool
  | _, [] => true
  | [], _ :: _ => false
  | c :: cs, d :: ds => c == d && startsWithChars cs ds

/-- The characters up to the first place where some others stand, these
included. -/
def charsThrough (mark : List Char) : List Char → List Char
  | [] => []
  | c :: cs => if startsWithChars (c :: cs) mark then mark else c :: charsThrough mark cs

/-- A text up to the head of the first trace in it. -/
def upToTrace (s : String) : String := String.ofList (charsThrough traceHead.toList s.toList)

/-- Why a call by the host came to nothing. -/
inductive Failure where
  /-- A fault with its trace. -/
  | traced (text : String)
  /-- A fault without a trace. -/
  | plain (text : String)
  /-- There was not enough memory. -/
  | memory
  /-- A string of the program that should be a text is none. -/
  | notText (reason : String)
  deriving DecidableEq

/-- The message of a failure. -/
def Failure.text : Failure → String
  | .traced text => s!"runtime error: {text}{traceHead}"
  | .plain text => s!"runtime error: {text}"
  | .memory => "memory error: not enough memory"
  | .notText reason => s!"error converting Lua string to &str ({reason})"

/-- What a raised string says, as far as a text without zero bytes can. -/
def Failure.ofRaised (s : Bytes) : Failure := .traced s.beforeZero.toText

/-- The failure of a call on the main thread, where faults come back as
texts. -/
def Failure.ofFault : Fault → Failure
  | .memory => .memory
  | .value (.str s) => .ofRaised s
  | .handling => .plain "error in error handling"
  | .nesting => .plain "C stack overflow"
  | _ => .traced ""

end NpcDialog
