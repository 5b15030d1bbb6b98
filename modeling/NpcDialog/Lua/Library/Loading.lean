import NpcDialog.Lua.Code.Archive
import NpcDialog.Lua.Code.Compiler
import NpcDialog.Lua.Library.Operations

/-!
# Loading code

How a program turns texts, archives and files into functions.

* `Loading.loadChunk` — a function from the bytes of a text or an archive.
* `Loading.load` — from a string or from the pieces that a reader gives.
* `Loading.loadFile`, `Loading.doFile` — from a file.
* `Loading.dump` — the archive of a function.
-/

namespace NpcDialog.Lua.Loading

open Bytes (ofText)

/-- A new function from a chunk; without an environment of its own it has that of
the globals. -/
def installed (c : Chunk) (env : Option Value) : Proc Value := fun k => .install c env k

/-- The message about a mode that does not allow a kind of chunk. -/
def modeMessage (kind : String) (mode : Bytes) : Bytes :=
  ofText "attempt to load a " ++ ofText kind ++ ofText " chunk (mode is " ++ quoted mode ++ ofText ")"

/-- What keeps a chunk from being loaded in a mode, judged by its first byte. -/
def modeFault (bytes mode : Bytes) : Option Bytes :=
  if Archive.isArchive bytes then
    if (mode.indexOf? 98 0).isNone then some (modeMessage "binary" mode) else none
  else if (mode.indexOf? 116 0).isNone then some (modeMessage "text" mode) else none

/-- What an archive is called in messages. -/
def archiveLabel (name : Bytes) : Bytes :=
  if name.byteAt 0 == 64 || name.byteAt 0 == 61 then name.slice 1 name.size
  else if Archive.isArchive name then ofText "binary string"
  else name

/-- A chunk from the bytes of a text or an archive, or a message. -/
def readChunk (name bytes mode : Bytes) (room : Nat) : Except Bytes Chunk :=
  match modeFault bytes mode with
  | some message => .error message
  | none =>
    if Archive.isArchive bytes then
      match Archive.read bytes with
      | .ok c => .ok c
      | .error why =>
        .error (archiveLabel name ++ ofText ": bad binary format (" ++ ofText why ++ ofText ")")
    else
      match Chunk.compile name bytes room with
      | .ok c => .ok c
      | .error (.message line text) =>
        .error (chunkLabel name ++ ofText ":" ++ Bytes.ofNat line ++ ofText ": " ++ text)
      | .error .nesting => .error (ofText "C stack overflow")

/-- A function from the bytes of a text or an archive, or a message. -/
def loadChunk (name bytes mode : Bytes) (env : Option Value) : Proc (Except Bytes Value) := do
  let room : Nat ← fun k => .room k
  match readChunk name bytes mode room with
  | .ok c => return .ok (← installed c env)
  | .error message => return .error message

/-- The results of loading: a function, or nothing and a message. -/
def loaded (r : Except Bytes Value) : Proc Ending :=
  match r with
  | .ok f => Ending.value f
  | .error message => Ending.values #[.nil, .str message]

/-- The environment that an argument gives, if it was not left out. -/
def environment (a : Args) (n : Nat) : Option Value :=
  if a.isMissing n then none else some (a.get n)

/-! ## Readers -/

/-- What a reader gave. -/
inductive Piece where
  /-- More of the chunk. -/
  | more (s : Bytes)
  /-- The end of it. -/
  | last
  /-- A fault. -/
  | fault (v : Value)

/-- Asks a reader for a piece. -/
def piece (reader : Value) : Proc Piece := do
  match ← Proc.attempt reader #[] with
  | .error v => return .fault v
  | .ok vs =>
    match vs.getD 0 .nil with
    | .nil => return .last
    | v =>
      match Args.textOf? v with
      | some s => return if s.size == 0 then .last else .more s
      | none => do
        let place : Bytes ← fun k => .place 1 k
        return .fault (.str (place ++ ofText "reader function must return a string"))

/-- The pieces that a reader gives, joined; the first argument bounds them. -/
def pieces (reader : Value) : Nat → Bytes → Proc (Except Value Bytes)
  | 0, acc => pure (.ok acc)
  | n + 1, acc => do
    match ← piece reader with
    | .last => return .ok acc
    | .fault v => return .error v
    | .more s => pieces reader n (acc ++ s)

/-- The greatest number of pieces that are read. -/
def pieceBound : Nat := 10000000

/-- A function from what a reader gives. -/
def loadPieces (reader : Value) (name mode : Bytes) (env : Option Value) : Proc Ending := do
  match ← piece reader with
  | .fault v => Ending.values #[.nil, v]
  | .last => loaded (← loadChunk name ByteArray.empty mode env)
  | .more first =>
    match modeFault first mode with
    | some message => loaded (.error message)
    | none =>
      match ← pieces reader pieceBound first with
      | .error v => Ending.values #[.nil, v]
      | .ok bytes => loaded (← loadChunk name bytes mode env)

/-- A function from a string, or from what a reader gives. -/
def load (a : Args) : Proc Ending := do
  let mode := (← a.textOr 3 (ofText "bt")).beforeZero
  let env := environment a 4
  match Args.textOf? (a.get 1) with
  | some s => do
    let name := (← a.textOr 2 s).beforeZero
    loaded (← loadChunk name s mode env)
  | none => do
    let name := (← a.textOr 2 (ofText "=(load)")).beforeZero
    loadPieces (← a.function 1) name mode env

/-! ## Files -/

/-- The index behind a mark of the byte order. -/
def afterMark (b : Bytes) : Nat := if b.beginsWith (Bytes.ofList [0xEF, 0xBB, 0xBF]) then 3 else 0

/-- The part of a file that is code.  A first line that begins with a number
sign is none, but it counts as a line of a text. -/
def codeOf (b : Bytes) : Bytes :=
  let i := afterMark b
  if b.byteAt i == 35 then
    let rest := match b.indexOf? 10 i with
      | some j => b.slice (j + 1) b.size
      | none => ByteArray.empty
    if Archive.isArchive rest then rest else Bytes.single 10 ++ rest
  else b.slice i b.size

/-- A function from a file, or a message.  A file without a name is the standard
input, which is empty. -/
def loadFrom (file : Option Bytes) (mode : Bytes) (env : Option Value) : Proc (Except Bytes Value) := do
  match file with
  | none => do
    Proc.process .streams
    loadChunk (ofText "=stdin") ByteArray.empty mode env
  | some path => do
    match ← Proc.read fun h => h.files.read path with
    | .ok contents => loadChunk (ofText "@" ++ path) (codeOf contents) mode env
    | .error e =>
      let action := if e == .isDirectory then "cannot read " else "cannot open "
      return .error (ofText action ++ path ++ ofText ": " ++ ofText e.text)

/-- A function from a file. -/
def loadFile (a : Args) : Proc Ending := do
  let file := (← a.text? 1).map Bytes.beforeZero
  let mode := (← a.textOr 2 (ofText "bt")).beforeZero
  loaded (← loadFrom file mode (environment a 3))

/-- The results of the function from a file. -/
def doFile (a : Args) : Proc Ending := do
  let file := (← a.text? 1).map Bytes.beforeZero
  match ← loadFrom file (ofText "bt") none with
  | .ok f => return .call f #[] .all
  | .error message => Proc.fail (.value (.str message))

/-! ## Archives -/

/-- The archive of a function. -/
def dump (a : Args) : Proc Ending := do
  let f ← a.function 1
  let code : Option FunctionCode ← fun k => .code f (a.get 2).isTrue k
  match code with
  | some c => Proc.returnString c.archive
  | none => Proc.failWith "unable to dump given function"

end NpcDialog.Lua.Loading
