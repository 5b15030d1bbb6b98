import NpcDialog.Dialog.Config
import NpcDialog.Dialog.Host
import NpcDialog.Script.Metadata
import NpcDialog.Lua.Library.Loading
import NpcDialog.Script.Program

/-!
# Extraction

From a script's source to its metadata.  The source is run in a machine of its
own, which has the libraries but no callbacks and is given up afterwards.
What it returns, or else its globals, describe the script.

The code of the entry function is kept as an archive.  When an archive is
loaded, the first captured variable of the function becomes the table of
globals and all others are lost, so an entry function may capture nothing
else.

* `CompileFault` — why a source gives no metadata.
* `Metadata.extract` — from a source.
* `Metadata.read` — from a file.
-/

namespace NpcDialog

open Bytes (ofText)
open Lua (Machine Value Chunk FunctionCode)

/-- The name of the entry function. -/
def entryName : String := "script"

/-- Why a file cannot be read as text. -/
inductive ReadFault where
  /-- The files do not have it. -/
  | file (f : FileFault)
  /-- It is not well-formed text. -/
  | notText
  /-- Its name has a zero byte. -/
  | zeroInName
  deriving DecidableEq

/-- What the system says of a file that cannot be read. -/
def ReadFault.text : ReadFault → String
  | .file f => s!"{f.text} (os error {f.code})"
  | .notText => "stream did not contain valid UTF-8"
  | .zeroInName => "file name contained an unexpected NUL byte"

/-- The text of a file. -/
def FileTree.readText (t : FileTree) (path : String) : Except ReadFault String :=
  if path.any (· == '\x00') then .error .zeroInName
  else
    match t.read (ofText path) with
    | .error f => .error (.file f)
    | .ok b => if b.isText then .ok b.toText else .error .notText

/-- Why a source gives no metadata, apart from where it is. -/
inductive CompileCause where
  /-- The file cannot be read. -/
  | unreadable (f : ReadFault)
  /-- The source is no program. -/
  | illFormed (message : String)
  /-- The program failed. -/
  | notEvaluated (f : Failure)
  /-- The entry function captures variables that would be lost. -/
  | capturesLocals (names : List String)
  /-- Something else went wrong. -/
  | unexpected (f : Failure)
  deriving DecidableEq

/-- Why a source gives no metadata. -/
structure CompileFault where
  /-- The file. -/
  path : String
  /-- The cause. -/
  cause : CompileCause
  deriving DecidableEq

/-- The message. -/
def CompileFault.text (f : CompileFault) : String :=
  match f.cause with
  | .unreadable e => s!"failed to read {f.path}: {e.text}"
  | .illFormed message => s!"syntax error in {f.path}: {message}"
  | .notEvaluated e => s!"error evaluating {f.path}: {e.text}"
  | .capturesLocals names =>
    let list := ", ".intercalate names
    s!"script in {f.path} captures top-level locals: {list}"
  | .unexpected e => s!"unexpected failure loading {f.path}: {e.text}"

namespace Extraction

/-- The name of a file as the name of a chunk. -/
def chunkName (path : String) : Bytes := ofText ("@" ++ path)

/-- The program of a source, placed in a machine. -/
def program (path source : String) (m : Machine) : Except CompileCause (Value × Machine) :=
  let name := chunkName path
  match name.indexOf? 0 0 with
  | some i =>
    .error (.unexpected
      (.plain s!"invalid name: nul byte found in provided data at position: {i}"))
  | none =>
    if m.isOverfull then .error (.unexpected .memory)
    else if Lua.Archive.isArchive (ofText source) then
      .error (.illFormed (Lua.Loading.modeMessage "binary" (ofText "t")).toText)
    else
      match Chunk.compile name (ofText source) Machine.compileRoom with
      | .error (.message line text) =>
        .error (.illFormed (Lua.chunkLabel name ++ ofText s!":{line}: " ++ text).toText)
      | .error .nesting => .error (.unexpected (.plain "C stack overflow"))
      | .ok c =>
        let (f, m) := m.loadChunk c
        if m.isOverfull then .error (.unexpected .memory) else .ok (f, m)

/-- How the program of a source ends, when it is run in a machine of its own, and
the machine afterwards. -/
def evaluated (config : Config) (path source : String) (files : FileTree) :
    Except CompileCause (Except Failure (Array Value) × Machine) := do
  let (f, m) ← program path source ((Machine.fresh files).limited config.memoryLimit)
  return (m.callFrom f #[]).alone

/-- The table that describes a script: what its program returned, or the
globals. -/
def descriptor (m : Machine) (returned : Array Value) : Value :=
  match returned.getD 0 .nil with
  | .table id => .table id
  | _ => .table m.heap.globals

/-- The entry function: that of the descriptor, or the global one. -/
def entry (m : Machine) (descriptor : Value) : Option Value × Machine :=
  match m.field descriptor entryName with
  | (found, m) =>
    if found.isFunction then (some found, m)
    else
      match m.field (.table m.heap.globals) entryName with
      | (found, m) => (if found.isFunction then some found else none, m)

/-- The names of the variables that a function captures, up to the first zero
byte; a name that is not known has one of its own. -/
def captureNames (f : FunctionCode) : List Bytes :=
  (List.range f.captures.size).map fun i =>
    (f.notes.captureNames[i]?).elim (ofText "(no name)") Bytes.beforeZero

/-- The names of captured variables that do not survive in an archive, or what
is wrong with a name. -/
def lostNames (f : FunctionCode) : Except String (List String) := do
  return (← (captureNames f).mapM Bytes.text).filter (· != "_ENV")

/-- The archive of a function's code. -/
def archive (f : FunctionCode) (strip : Bool) : Bytecode :=
  ⟨(if strip then f.strip else f).archive⟩

/-- The code of an entry function, if there is one that has code. -/
def entryCode (config : Config) (path : String) (m : Machine) (f : Option Value) :
    Action (Except CompileCause (Option Bytecode)) :=
  match f with
  | none => do
    Action.log (.noEntry path)
    return .ok none
  | some v =>
    match m.codeOf v with
    | some f =>
      match lostNames f with
      | .error reason => return .error (.unexpected (.notText reason))
      | .ok [] => do
        let c := archive f config.stripDebugInfo
        Action.log (.dumped c.size path)
        return .ok (some c)
      | .ok lost => return .error (.capturesLocals lost)
    | none => do
      Action.log (.notDumped path)
      return .ok none

/-- The text that a value is to a descriptor, empty if it is neither a string
nor a number.  That there may be too little memory for the text of a number is left
out. -/
def textOf (v : Value) : String := (Lua.Args.textOf? v).elim "" Bytes.toText

/-- The number that a value is to a descriptor, zero if it is none of 32
bits. -/
def numberOf (v : Value) : Int :=
  match v.toInteger? with
  | some n => if -0x80000000 ≤ n.toInt ∧ n.toInt < 0x80000000 then n.toInt else 0
  | none => 0

/-- Reads all fields but the entry function from a descriptor. -/
def fields (path : String) (descriptor : Value) (code : Option Bytecode) (m : Machine) :
    Metadata × Machine :=
  let (map, m) := m.field descriptor "map"
  let (x, m) := m.field descriptor "x"
  let (y, m) := m.field descriptor "y"
  let (facing, m) := m.field descriptor "facing"
  let (name, m) := m.field descriptor "name"
  let (sprite, m) := m.field descriptor "sprite"
  (⟨path, textOf map, numberOf x, numberOf y, numberOf facing, textOf name, numberOf sprite, code⟩, m)

/-- What a machine leaves that is given up: the files, and what its program has done
with the process. -/
def leave (m : Machine) : Action Unit := do
  let m := m.release.alone
  Action.setFiles m.heap.files
  Action.tellAll (m.deeds.reverse.map .process)

end Extraction

open Extraction

/-- The metadata of a source.  The path only says where it is from. -/
def Metadata.extract (config : Config) (path source : String) : Action (Except CompileFault Metadata) := do
  let refuse (cause : CompileCause) : Action (Except CompileFault Metadata) :=
    return .error ⟨path, cause⟩
  Action.log (.extracting path)
  let files ← Action.files
  match evaluated config path source files with
  | .error cause => refuse cause
  | .ok (.error e, m) => do
    leave m
    refuse (.notEvaluated e)
  | .ok (.ok returned, m) =>
    let d := descriptor m returned
    match entry m d with
    | (f, m) =>
      match ← entryCode config path m f with
      | .error cause => do
        leave m
        refuse cause
      | .ok c =>
        match fields path d c m with
        | (known, m) => do
          leave m
          Action.log (.extracted known.name known.sprite known.map known.x known.y path)
          return .ok known

/-- The metadata of a file. -/
def Metadata.read (config : Config) (path : String) : Action (Except CompileFault Metadata) := do
  let files ← Action.files
  match files.readText path with
  | .error f => return .error ⟨path, .unreadable f⟩
  | .ok source => Metadata.extract config path source

end NpcDialog
