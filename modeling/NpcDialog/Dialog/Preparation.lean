import NpcDialog.Dialog.Config
import NpcDialog.Script.Program

/-!
# Preparation

The machine of a context before its script runs: all libraries, the functions
that load code replaced by ones that take texts only, the callbacks, and the
handles that stand for the conversation.

* `Machine.withTextLoaders` — the loaders replaced.
* `Machine.withCallbacks` — the callbacks installed.
* `Machine.equipped` — both.
* `Machine.prepare` — the same within the memory there may be.
* `Machine.bindHandles` — the handles in place.
-/

namespace NpcDialog

open Lua (Machine Value)

namespace Preparation

/-- The loaders of a context.  They hand every chunk on with the mode of
texts, whatever mode was asked for. -/
def textLoaders : String := "
local load, loadfile = load, loadfile

local function text_load(chunk, chunkname, _, ...)
    return load(chunk, chunkname, \"t\", ...)
end

local function text_loadfile(filename, _, ...)
    return loadfile(filename, \"t\", ...)
end

local function text_dofile(filename)
    local f = assert(text_loadfile(filename))
    return f()
end

return text_load, text_loadfile, text_dofile
"

/-- The names of the loaders, in the order in which they are returned. -/
def loaderNames : List String := ["load", "loadfile", "dofile"]

/-- The function around a callback that suspends its caller: a callback cannot
do that by itself. -/
def suspender : String := "
local notify = ...
local yield = coroutine.yield
return function(...)
    if notify(...) then
        return yield()
    end
end
"

end Preparation

namespace Lua.Machine

open Preparation

/-- The machine with loaders that take texts only. -/
def withTextLoaders (m : Machine) : Machine :=
  let made := m.resultsOf "=loaders" textLoaders #[]
  (loaderNames.zip made.1.toList).foldl (fun m (name, f) => m.setGlobal name f) made.2

/-- The machine with one more callback. -/
def withCallback (m : Machine) (c : Callback) : Machine :=
  if c.suspends then
    let made := m.resultsOf ("=" ++ c.name) suspender #[.builtin (.host c)]
    made.2.setGlobal c.name (made.1.getD 0 .nil)
  else m.setGlobal c.name (.builtin (.host c))

/-- The machine with all callbacks. -/
def withCallbacks (m : Machine) : Machine := Callback.all.foldl withCallback m

/-- The machine of a new context, with no bound for the memory. -/
def equipped (files : FileTree) : Machine := (fresh files).withTextLoaders.withCallbacks

/-- The machine of a new context, unless there is too little memory for it. -/
def prepare (config : Config) (files : FileTree) : Except Failure Machine :=
  let m := (equipped files).limited config.memoryLimit
  if m.isOverfull then .error .memory else .ok m

/-- The machine with the handles of a conversation in the reserved globals. -/
def bindHandles (m : Machine) : Machine :=
  Handle.all.foldl (fun m h => m.setGlobal h.globalName (.handle h)) m

end Lua.Machine

end NpcDialog
