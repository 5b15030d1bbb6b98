import NpcDialog.Bytes

/-!
# Files

The files a program can see, as a value: directories and files by their path
below one starting directory.  Paths are walked component by component, and a
walk that fails says why in the way a POSIX system does.

* `FileTree` — the files.
* `FileTree.find` — what is at a path.
* `FileTree.read` — the contents of a file.
* `FileTree.write` — the tree with new contents of a file.
* `FileFault` — why a path leads nowhere, with number and text.
-/

namespace NpcDialog

open Bytes (ofText)

/-- Why a file operation fails. -/
inductive FileFault where
  /-- A component of the path is missing. -/
  | notFound
  /-- The operation needs a file and found a directory. -/
  | isDirectory
  /-- A component in front of another is a file. -/
  | notDirectory
  /-- A component or the whole path is too long. -/
  | nameTooLong
  /-- The operation is not allowed. -/
  | denied
  deriving DecidableEq

/-- The number of the fault. -/
def FileFault.code : FileFault → Nat
  | .notFound => 2
  | .isDirectory => 21
  | .notDirectory => 20
  | .nameTooLong => 36
  | .denied => 13

/-- The text of the fault. -/
def FileFault.text : FileFault → String
  | .notFound => "No such file or directory"
  | .isDirectory => "Is a directory"
  | .notDirectory => "Not a directory"
  | .nameTooLong => "File name too long"
  | .denied => "Permission denied"

/-- What is at a path. -/
inductive FileEntry where
  /-- A file with its contents. -/
  | file (contents : Bytes)
  /-- A directory. -/
  | directory

/-- The files below the starting directory, each under its path components. -/
structure FileTree where
  /-- The files and directories. -/
  entries : List (List Bytes × FileEntry)

namespace FileTree

/-- No files at all. -/
def empty : FileTree := ⟨[]⟩

/-- The pieces of a path between slashes, from index `i` on; the first argument
bounds the pieces. -/
def piecesFrom (path : Bytes) : Nat → Nat → List Bytes
  | 0, _ => []
  | n + 1, i =>
    match path.indexOf? 47 i with
    | some j => path.slice i j :: piecesFrom path n (j + 1)
    | none => [path.slice i path.size]

/-- The pieces of a path between slashes. -/
def pieces (path : Bytes) : List Bytes := piecesFrom path (path.size + 1) 0

/-- The entry at exact components. -/
def entryAt (t : FileTree) (place : List Bytes) : Option FileEntry :=
  if place.isEmpty then some .directory
  else (t.entries.find? fun e => e.1 == place).map Prod.snd

/-- Walks over the pieces of a path.  `place` holds the components so far, the
last one first. -/
def walk (t : FileTree) (place : List Bytes) : List Bytes → Except FileFault (List Bytes)
  | [] => .ok place
  | c :: rest =>
    if 255 < c.size then .error .nameTooLong
    else
      match t.entryAt place.reverse with
      | none => .error .notFound
      | some (.file _) => .error .notDirectory
      | some .directory =>
        if c.size == 0 || c == ofText "." then walk t place rest
        else if c == ofText ".." then walk t place.tail rest
        else walk t (c :: place) rest

/-- The components of a path; the last one need not exist. -/
def resolve (t : FileTree) (path : Bytes) : Except FileFault (List Bytes) :=
  if path.size == 0 then .error .notFound
  else if 4095 < path.size then .error .nameTooLong
  else if path.byteAt 0 == 47 then .error .notFound
  else do
    let place ← t.walk [] (pieces path)
    return place.reverse

/-- What is at a path. -/
def find (t : FileTree) (path : Bytes) : Except FileFault FileEntry := do
  let place ← t.resolve path
  match t.entryAt place with
  | some e => .ok e
  | none => .error .notFound

/-- The contents of a file. -/
def read (t : FileTree) (path : Bytes) : Except FileFault Bytes := do
  match ← t.find path with
  | .file contents => .ok contents
  | .directory => .error .isDirectory

/-- The tree with an entry at exact components, in place of what was there. -/
def put (t : FileTree) (place : List Bytes) (e : FileEntry) : FileTree :=
  ⟨(place, e) :: t.entries.filter fun old => old.1 != place⟩

/-- The tree with new contents of a file, which is made if it is missing. -/
def write (t : FileTree) (path contents : Bytes) : Except FileFault FileTree := do
  let place ← t.resolve path
  match t.entryAt place with
  | some .directory => .error .isDirectory
  | some (.file _) => .ok (t.put place (.file contents))
  | none => if path.endsWith (ofText "/") then .error .isDirectory else .ok (t.put place (.file contents))

/-- The tree without the file at a path. -/
def remove (t : FileTree) (path : Bytes) : Except FileFault FileTree := do
  let place ← t.resolve path
  match t.entryAt place with
  | some _ => .ok ⟨t.entries.filter fun old => old.1 != place⟩
  | none => .error .notFound

/-- The tree with one more file or directory.  Directories on the way to it are
made too. -/
def add (t : FileTree) (path : Bytes) (e : FileEntry) : FileTree :=
  let place := (pieces path).filter fun c => c.size != 0 && c != ofText "."
  let parents := (List.range place.length).filterMap fun n =>
    if n == 0 || (t.entryAt (place.take n)).isSome then none
    else some (place.take n, FileEntry.directory)
  (FileTree.mk (parents ++ t.entries)).put place e

end FileTree

end NpcDialog
