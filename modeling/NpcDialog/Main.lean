import NpcDialog.Command.Play

/-!
# The program

Gives the arguments, the files below the working directory and the lines of
standard input to the commands, and prints what they answer.  Files that a
script wrote are written when the command is over.

* `gather` — the files below a directory.
* `restore` — writes what has changed.
* `main` — the program.
-/

namespace NpcDialog

open Command

/-- The greatest number of directories inside each other that are looked
into. -/
def directoryDepth : Nat := 8

/-- The files below the directory that `entries` lists, each under its path
behind `place`. -/
def gather : Nat → String → Array IO.FS.DirEntry → FileTree → IO FileTree
  | 0, _, _, t => return t
  | n + 1, place, entries, t =>
    entries.foldlM (fun t e => do
      let path := place ++ e.fileName
      if ← e.path.isDir then
        let t := t.add (Bytes.ofText path) .directory
        let inner ← (do return some (← e.path.readDir)) <|> (return none)
        match inner with
        | some inner => gather n (path ++ "/") inner t
        | none => return t
      else
        let contents ← (do return some (← IO.FS.readBinFile e.path)) <|> (return none)
        match contents with
        | some b => return t.add (Bytes.ofText path) (.file b)
        | none => return t) t

/-- The path of some components. -/
def pathText (place : List Bytes) : String := "/".intercalate (place.map Bytes.toText)

/-- Writes the files of a tree that another one does not have as they are, and
removes those that are gone. -/
def restore (old new : FileTree) : IO Unit := do
  for (place, e) in new.entries do
    match e, old.entryAt place with
    | .file b, some (.file c) => if b != c then IO.FS.writeBinFile (pathText place) b
    | .file b, _ => IO.FS.writeBinFile (pathText place) b
    | .directory, _ => pure ()
  for (place, e) in old.entries do
    match e, new.entryAt place with
    | .file _, none => IO.FS.removeFile (pathText place)
    | _, _ => pure ()

/-- Prints what a finished command leaves. -/
def finish (e : Ending) : IO UInt32 := do
  IO.print e.output
  IO.eprint e.errors
  return UInt32.ofNat e.code

/-- The next line of a stream, byte by byte, behind what was read of it. -/
partial def nextLine (input : IO.FS.Stream) (acc : ByteArray) : IO ByteArray := do
  let b ← input.read 1
  if b.isEmpty then return acc
  else if b[0]? == some 10 then return acc.push 10
  else nextLine input (acc ++ b)

/-- Plays on, a line of input at a time. -/
partial def playOn (files : FileTree) (output : String) (p : Played) : IO UInt32 := do
  let stdout ← IO.getStdout
  stdout.putStr output
  stdout.flush
  let line ← nextLine (← IO.getStdin) ByteArray.empty
  if line.isEmpty then
    let (e, host) := p.stop
    restore files host.files
    finish e
  else
    match p.line line with
    | .over e host => do
      restore files host.files
      finish e
    | .waiting output p => playOn files output p

end NpcDialog

open NpcDialog Command in
/-- The program. -/
def main (args : List String) : IO UInt32 := do
  match Invocation.ofArguments args with
  | .error r => finish (.ofRefusal r)
  | .ok v => do
    let files ← gather directoryDepth "" (← (← IO.currentDir).readDir) FileTree.empty
    match v.start toString files with
    | .over e host => do
      restore files host.files
      finish e
    | .waiting output p => playOn files output p
