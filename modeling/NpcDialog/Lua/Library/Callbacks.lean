import NpcDialog.Lua.Library.Arguments

/-!
# Callbacks

The built-in functions behind a script's operations on the world outside.  What
such a function does is not up to the program; it only hands its arguments on.

* `Callbacks.invoke` — a call.
-/

namespace NpcDialog.Lua.Callbacks

/-- Calls a callback.  The result tells whether the script is to suspend. -/
def invoke (c : Callback) (a : Args) : Proc Ending := do
  let suspends : Bool ← fun k => .host c a.values k
  Ending.value (.bool suspends)

end NpcDialog.Lua.Callbacks
