import NpcDialog.Dialog.Conversation
import NpcDialog.Lua.Library.Arguments
import NpcDialog.Lua.Machine

/-!
# Callbacks at work

What a script's call of an operation of the world outside does.  The operation
looks for the handles of the conversation in the reserved globals, without
asking any metatable; only a handle of the right kind in the right place will
do.  A call tells what it did; it never fails, and leaves the machine as it is.

* `Machine.ambient?` — what the handle in a reserved global stands for.
* `Machine.scope?` — the conversation, if its handles are in place.
* `InteractionScope.answer` — what comes of a call in it.
* `Machine.invoke` — a call.
-/

namespace NpcDialog

open Lua (Value Machine Args)
open Bytes (ofText)

namespace Lua.Machine

/-- What the handle in a reserved global stands for, if there is one. -/
def ambient? (m : Machine) (v : Conversation) (k : Handle) : Option Identity :=
  match m.heap.rawGetStr m.heap.globals (ofText k.globalName) with
  | .handle found => v.identity? found
  | _ => none

/-- The conversation, if the handles of session and entity are in place. -/
def scope? (m : Machine) (v : Conversation) : Option InteractionScope := do
  let s ← (m.ambient? v .session).bind Identity.session?
  let e ← (m.ambient? v .entity).bind Identity.entity?
  return ⟨(m.ambient? v .context).bind Identity.context?, s, e⟩

end Lua.Machine

/-- What a callback tells when it is called in a scope, and whether the script is
to suspend.  A number is always made a text: that there may be too little memory for the
text is left out. -/
def InteractionScope.answer (s : InteractionScope) (c : Callback) (args : Array Value) : Report × Bool :=
  let event (kind : EventKind) : Report := .event ⟨s.session, s.entity, kind⟩
  match c with
  | .message =>
    match args[0]? with
    | none => (.line (.noParameters c), false)
    | some v =>
      match Args.textOf? v with
      | none => (.line (.notText c), false)
      | some text => (event (.message text.toText), false)
  | .advance => (event .advance, true)
  | .close => (event .close, false)

/-- Calls a callback.  The answer tells whether the script is to suspend. -/
def Lua.Machine.invoke (m : Machine) (c : Callback) (args : Array Value) : Conversing Bool := do
  match m.scope? (← get) with
  | none => do
    .tell (.line (.noContext c))
    return false
  | some s => do
    .tell (.line (.called c s.entity s.session s.context))
    let (report, suspends) := s.answer c args
    .tell report
    return suspends

end NpcDialog
