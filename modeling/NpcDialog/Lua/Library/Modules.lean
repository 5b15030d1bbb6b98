import NpcDialog.Lua.Library.Loading

/-!
# Modules

The function `require` and the table `package`: programs in other files, each
run once.

* `Modules.require` — the value of a module.
* `Modules.searchPath` — the file of a module.
-/

namespace NpcDialog.Lua.Modules

open Bytes (ofText)

/-- The paths on which modules are looked for. -/
def defaultPath : String :=
  "/usr/local/share/lua/5.4/?.lua;/usr/local/share/lua/5.4/?/init.lua;/usr/local/lib/lua/5.4/?.lua;"
    ++ "/usr/local/lib/lua/5.4/?/init.lua;./?.lua;./?/init.lua"

/-- A field of the table `package`. -/
def packageField (name : String) : Proc Value := do
  match ← Proc.read fun h => h.rawGetStr h.loaded (ofText "package") with
  | .table id => Proc.index (.table id) (.ofText name)
  | _ => return .nil

/-- A byte string with every occurrence of a byte replaced. -/
def replaceByte (s : Bytes) (c : UInt8) (by_ : Bytes) : Bytes :=
  s.size.fold (fun i _ acc => if s.byteAt i == c then acc ++ by_ else acc.push (s.byteAt i)) ByteArray.empty

/-- The parts of a byte string between semicolons; the first argument bounds
them. -/
def templates (s : Bytes) : Nat → Nat → List Bytes
  | 0, _ => []
  | n + 1, i =>
    match s.indexOf? 59 i with
    | some j => s.slice i j :: templates s n (j + 1)
    | none => [s.slice i s.size]

/-- The first file among the templates of a path, or a text that tells which ones
were tried. -/
def searchIn (name path : Bytes) : Proc (Except Bytes Bytes) := do
  let paths := (templates path (path.size + 1) 0).map fun t => replaceByte t 63 name
  let found ← Proc.read fun h => paths.find? fun p =>
    match h.files.find p with
    | .ok (.file _) => true
    | _ => false
  match found with
  | some p => return .ok p
  | none =>
    let lines := paths.map fun p => ofText "no file '" ++ p ++ ofText "'"
    return .error (Bytes.join (ofText "\n\t") lines)

/-- The file of a module. -/
def searchPath (a : Args) : Proc Ending := do
  let name ← a.text 1
  let path ← a.text 2
  let sep ← a.textOr 3 (ofText ".")
  let rep ← a.textOr 4 (ofText "/")
  let name := if sep.size == 1 then replaceByte name (sep.byteAt 0) rep else name
  match ← searchIn name path with
  | .ok p => Ending.value (.str p)
  | .error text => Ending.values #[.nil, .str text]

/-- Looks for a loader that was put into place. -/
def preloadSearcher (a : Args) : Proc Ending := do
  let name ← a.text 1
  let loader ← match ← packageField "preload" with
    | .table id => Proc.index (.table id) (.str name)
    | _ => pure .nil
  if loader.isNil then
    Ending.value (.str (ofText "no field package.preload['" ++ name ++ ofText "']"))
  else Ending.values #[loader, .ofText ":preload:"]

/-- Looks for a text in a file. -/
def textSearcher (a : Args) : Proc Ending := do
  let name ← a.text 1
  match ← packageField "path" with
  | .str path => do
    match ← searchIn (replaceByte name 46 (ofText "/")) path with
    | .error text => Ending.value (.str text)
    | .ok file => do
      match ← Loading.loadFrom (some file) (ofText "bt") none with
      | .ok f => Ending.values #[f, .str file]
      | .error message =>
        Proc.fail (.message 1 (ofText "error loading module " ++ quoted name ++ ofText " from file "
          ++ quoted file ++ ofText ":\n\t" ++ message))
  | _ => Proc.failWith "'package.path' must be a string"

/-- Fails because no loader was found. -/
def loaderNotFound {α : Type} (name tried : Bytes) : Proc α :=
  Proc.fail (.message 1 (ofText "module " ++ quoted name ++ ofText " not found:" ++ tried))

/-- Asks the searchers from the `i`-th on for a loader; the first argument bounds
them. -/
def findLoader (name : Bytes) (searchers : Value) : Nat → Int64 → Bytes → Proc (Value × Value)
  | 0, _, tried => loaderNotFound name tried
  | n + 1, i, tried => do
    let searcher ← Proc.element searchers i
    if searcher.isNil then loaderNotFound name tried
    else
      let vs ← Proc.call searcher #[.str name]
      let first := vs.getD 0 .nil
      if first.isFunction then return (first, vs.getD 1 .nil)
      else
        let more := match Args.textOf? first with
          | some s => ofText "\n\t" ++ s
          | none => ByteArray.empty
        findLoader name searchers n (i + 1) (tried ++ more)

/-- The value of a module. -/
def require (a : Args) : Proc Ending := do
  let name ← a.text 1
  let loaded : Value := .table (← Proc.read Heap.loaded)
  let known ← Proc.index loaded (.str name)
  if known.isTrue then Ending.value known
  else
    match ← packageField "searchers" with
    | .table id => do
      let (loader, extra) ← findLoader name (.table id) 100 1 ByteArray.empty
      let v ← Proc.callOne loader #[.str name, extra]
      if !v.isNil then Proc.assign loaded (.str name) v
      let result ← Proc.index loaded (.str name)
      if result.isNil then
        Proc.assign loaded (.str name) (.bool true)
        Ending.values #[.bool true, extra]
      else Ending.values #[result, extra]
    | _ => Proc.failWith "'package.searchers' must be a table"

/-- Libraries that are no programs cannot be loaded. -/
def loadLibrary (_ : Args) : Proc Ending :=
  Ending.values #[.nil, .ofText "dynamic libraries not enabled; check your Lua installation", .ofText "absent"]

end NpcDialog.Lua.Modules
