import NpcDialog.Lua.Library.Operations

/-!
# Files and streams

The functions of the table `io` and the methods of file handles.  Contents are
those of the file tree.  What goes to the standard output is told as a use of the
process; every other use of a standard stream is told too, but the standard input
is empty to a script.

* `Streams.openFile` — a handle for a path.
* `Streams.readFormats` — reading in several formats.
* `Streams.writeAll` — writing.
-/

namespace NpcDialog.Lua.Streams

open Bytes (ofText)

/-! ## Handles -/

/-- What a handle stands for. -/
def fileAt (id : Nat) : Proc (Option OpenFile) := Proc.read fun h => h.openFiles[id]?

/-- The handle of an argument, open or not. -/
def anyHandle (a : Args) (n : Nat) : Proc Nat :=
  match a.get n with
  | .file id => pure id
  | _ => a.mismatch n "FILE*"

/-- A handle that must be open. -/
def opened (id : Nat) : Proc OpenFile := do
  match ← fileAt id with
  | some f => if f.isOpen then return f else Proc.failWith "attempt to use a closed file"
  | none => Proc.failWith "attempt to use a closed file"

/-- The open handle of an argument. -/
def handle (a : Args) (n : Nat) : Proc (Nat × OpenFile) := do
  let id ← anyHandle a n
  return (id, ← opened id)

/-- Changes what a handle stands for. -/
def setFile (id : Nat) (f : OpenFile) : Proc Unit :=
  Proc.update fun h => { h with openFiles := h.openFiles.setIfInBounds id f }

/-- The results of an operation that failed. -/
def failure (e : FileFault) (path : Option Bytes) : Proc Ending :=
  let text := match path with
    | some p => p ++ ofText ": " ++ ofText e.text
    | none => ofText e.text
  Ending.values #[.nil, .str text, .ofNat e.code]

/-- The fault of a handle that cannot be used as asked. -/
def badHandle : Proc Ending := Ending.values #[.nil, .ofText "Bad file descriptor", .ofNat 9]

/-- Tells of a standard stream that it is used. -/
def touch (f : OpenFile) : Proc Unit :=
  match f.target with
  | .stream _ => Proc.process .streams
  | _ => pure ()

/-! ## Opening -/

/-- What a mode allows, if it is one. -/
def modeOf (mode : Bytes) : Option FileMode :=
  let letter := mode.byteAt 0
  let both := mode.byteAt 1 == 43
  let rest := mode.slice (if both then 2 else 1) mode.size
  if !rest.data.all (· == 98) || mode.size == 0 then none
  else if letter == 114 then some ⟨true, both, false⟩
  else if letter == 119 then some ⟨both, true, false⟩
  else if letter == 97 then some ⟨both, true, true⟩
  else none

/-- A new handle for a path. -/
def openPath (path : Bytes) (mode : FileMode) (truncates : Bool) : Proc (Except FileFault Value) :=
  Proc.alter fun h =>
    let create (contents : Bytes) : Except FileFault Value × Heap :=
      match h.files.write path contents with
      | .ok files =>
        let (v, h) := { h with files }.newFile ⟨.path path, mode, 0, true⟩
        (.ok v, h)
      | .error e => (.error e, h)
    match h.files.find path with
    | .ok .directory =>
      if mode.writes then (.error .isDirectory, h)
      else
        let (v, h) := h.newFile ⟨.directory, mode, 0, true⟩
        (.ok v, h)
    | .ok (.file contents) =>
      if truncates then create ByteArray.empty
      else
        let position := if mode.appends then contents.size else 0
        let (v, h) := h.newFile ⟨.path path, mode, position, true⟩
        (.ok v, h)
    | .error e => if mode.writes && (truncates || mode.appends) then create ByteArray.empty else (.error e, h)

/-- Opens a file. -/
def openFile (a : Args) : Proc Ending := do
  let path := (← a.text 1).beforeZero
  let text := (← a.textOr 2 (ofText "r")).beforeZero
  match modeOf text with
  | none => Args.refuse 2 "invalid mode"
  | some mode => do
    match ← openPath path mode (text.byteAt 0 == 119) with
    | .ok v => Ending.value v
    | .error e => failure e (some path)

/-- Opens a file for a function that must have it. -/
def openOrFail (path : Bytes) (text : String) : Proc Value := do
  let mode := (modeOf (ofText text)).getD ⟨true, false, false⟩
  match ← openPath path mode (text == "w") with
  | .ok v => return v
  | .error e => Proc.fail (.message 1 (ofText "cannot open file " ++ quoted path ++ ofText " (" ++ ofText e.text ++ ofText ")"))

/-! ## Reading -/

/-- The contents behind a handle. -/
def contents (f : OpenFile) : Proc Bytes :=
  match f.target with
  | .path p => Proc.read fun h => (h.files.read p).toOption.getD ByteArray.empty
  | _ => pure ByteArray.empty

/-- The index behind the digits that begin at `i`; the first argument bounds
them. -/
def digitsEnd (b : Bytes) (isDigit : UInt8 → Bool) : Nat → Nat → Nat
  | 0, i => i
  | n + 1, i => if i < b.size && isDigit (b.byteAt i) then digitsEnd b isDigit n (i + 1) else i

/-- The index behind the numeral that begins at `i`. -/
def numeralEnd (b : Bytes) (i : Nat) : Nat :=
  let isSign (c : UInt8) := c == 43 || c == 45
  let i := if isSign (b.byteAt i) then i + 1 else i
  let hex := b.byteAt i == 48 && Bytes.lower (b.byteAt (i + 1)) == 120
  let i := if hex then i + 2 else i
  let isDigit := if hex then Bytes.isHex else Bytes.isDigit
  let i := digitsEnd b isDigit b.size i
  let i := if b.byteAt i == 46 && i < b.size then digitsEnd b isDigit b.size (i + 1) else i
  if Bytes.lower (b.byteAt i) == (if hex then 112 else 101) then
    let i := if isSign (b.byteAt (i + 1)) then i + 2 else i + 1
    digitsEnd b Bytes.isDigit b.size i
  else i

/-- Reads one format from index `i` on: the value, absent at the end of the
contents, and the index behind. -/
def readFormat (b : Bytes) (i : Nat) (format : Value) : Except Unit (Value × Nat) :=
  let upTo (n : Nat) : Value × Nat :=
    let j := min b.size (i + n)
    (if j == i && (n != 0 || b.size ≤ i) then .nil else .str (b.slice i j), j)
  match format.number? with
  | some n => .ok (upTo ((n.toInteger?.getD 0).toInt.toNat))
  | none =>
    match format with
    | .str s =>
      let c := if s.byteAt 0 == 42 then s.byteAt 1 else s.byteAt 0
      if c == 97 then .ok (.str (b.slice i b.size), max i b.size)
      else if c == 108 || c == 76 then
        if b.size ≤ i then .ok (.nil, i)
        else
          match b.indexOf? 10 i with
          | some j => .ok (.str (b.slice i (if c == 76 then j + 1 else j)), j + 1)
          | none => .ok (.str (b.slice i b.size), b.size)
      else if c == 110 then
        let start := Numeral.skipSpace b i
        let stop := numeralEnd b start
        .ok (((Numeral.read? (b.slice start stop)).elim .nil Value.ofNumber), stop)
      else .error ()
    | _ => .error ()

/-- Reads formats one after the other until one gives nothing. -/
def readAll (b : Bytes) : List (Nat × Value) → Nat → Array Value → Proc (Array Value × Nat)
  | [], i, acc => pure (acc, i)
  | (n, format) :: rest, i, acc =>
    match readFormat b i format with
    | .error _ => Args.refuse n "invalid format"
    | .ok (v, j) => if v.isNil then pure (acc.push v, j) else readAll b rest j (acc.push v)

/-- Reads from a handle; the formats are the arguments from `first` on. -/
def readFormats (id : Nat) (f : OpenFile) (formats : Array Value) (first : Nat) : Proc Ending := do
  match f.target with
  | .directory => failure .isDirectory none
  | _ =>
    if !f.mode.reads then badHandle
    else
      touch f
      let formats := if formats.isEmpty then #[.ofText "l"] else formats
      let numbered := formats.toList.mapIdx fun i v => (i + first, v)
      let (vs, position) ← readAll (← contents f) numbered f.position #[]
      setFile id { f with position }
      Ending.values vs

/-- Reads from a handle. -/
def read (a : Args) : Proc Ending := do
  let (id, f) ← handle a 1
  readFormats id f (a.from_ 2) 2

/-- Reads from the default input. -/
def readDefault (a : Args) : Proc Ending := do
  let id ← Proc.read Heap.defaultInput
  readFormats id (← opened id) a.values 1

/-! ## Writing -/

/-- Writes texts to a handle. -/
def writeTo (id : Nat) (f : OpenFile) (texts : List Bytes) : Proc Ending := do
  match f.target with
  | .path p =>
    if !f.mode.writes then badHandle
    else
      let old ← contents f
      let new := Bytes.join ByteArray.empty texts
      let start := if f.mode.appends then old.size else f.position
      let before := old.slice 0 start ++ Bytes.replicate (start - old.size) 0
      let text := before ++ new ++ old.slice (start + new.size) old.size
      match ← Proc.alter (fun h => match h.files.write p text with
          | .ok files => (Except.ok (), { h with files })
          | .error e => (Except.error e, h)) with
      | .ok _ => do
        setFile id { f with position := start + new.size }
        Ending.value (.file id)
      | .error e => failure e none
  | _ =>
    if !f.mode.writes then badHandle
    else
      match f.target with
      | .stream .output => Proc.process (.prints (Bytes.join ByteArray.empty texts))
      | _ => touch f
      Ending.value (.file id)

/-- Writes to a handle. -/
def write (a : Args) : Proc Ending := do
  let (id, f) ← handle a 1
  let texts ← (List.range (a.size - 1)).mapM fun i => a.text (i + 2)
  writeTo id f texts

/-- Writes to the default output. -/
def writeDefault (a : Args) : Proc Ending := do
  let id ← Proc.read Heap.defaultOutput
  let f ← opened id
  let texts ← (List.range a.size).mapM fun i => a.text (i + 1)
  writeTo id f texts

/-! ## Other methods -/

/-- Closes a handle, unless it is that of a standard stream. -/
def closeHandle (id : Nat) (f : OpenFile) : Proc Ending := do
  match f.target with
  | .stream _ => Ending.values #[.nil, .ofText "cannot close standard file"]
  | _ => do
    setFile id { f with isOpen := false }
    Ending.value (.bool true)

/-- Closes a handle. -/
def close (a : Args) : Proc Ending := do
  let (id, f) ← handle a 1
  closeHandle id f

/-- Closes a handle, or the default output. -/
def closeDefault (a : Args) : Proc Ending := do
  if a.isMissing 1 then
    let id ← Proc.read Heap.defaultOutput
    closeHandle id (← opened id)
  else close a

/-- Writes out what is held back, which is nothing. -/
def flush (a : Args) : Proc Ending := do
  let (id, _) ← handle a 1
  Ending.value (.file id)

/-- Writes out what is held back for the default output. -/
def flushDefault (_ : Args) : Proc Ending := do
  let id ← Proc.read Heap.defaultOutput
  discard (opened id)
  Ending.value (.file id)

/-- Sets how much is held back, which changes nothing. -/
def setBuffering (a : Args) : Proc Ending := do
  discard (handle a 1)
  discard (a.option 2 ["no", "full", "line"] none)
  discard (a.integerOr 3 1024)
  Ending.value (.bool true)

/-- Goes to another place of the contents. -/
def seek (a : Args) : Proc Ending := do
  let (id, f) ← handle a 1
  let whence ← a.option 2 ["set", "cur", "end"] (some "cur")
  let distance ← a.integerOr 3 0
  touch f
  let size := (← contents f).size
  let origin := if whence == "set" then 0 else if whence == "cur" then f.position else size
  let place := (origin : Int) + distance.toInt
  if place < 0 then Ending.values #[.nil, .ofText "Invalid argument", .ofNat 22]
  else
    setFile id { f with position := place.toNat }
    Ending.value (.ofNat place.toNat)

/-- The text of a handle. -/
def toText (a : Args) : Proc Ending := do
  let id ← anyHandle a 1
  let isOpen := ((← fileAt id).map OpenFile.isOpen).getD false
  Proc.returnString (if isOpen then ofText "file (" ++ (Value.file id).address ++ ofText ")"
    else ofText "file (closed)")

/-- What kind of handle a value is. -/
def kind (a : Args) : Proc Ending := do
  match ← a.any 1 with
  | .file id => do
    let isOpen := ((← fileAt id).map OpenFile.isOpen).getD false
    Ending.value (.ofText (if isOpen then "file" else "closed file"))
  | _ => Ending.value .nil

/-! ## Lines -/

/-- A function that reads one line after the other.  It closes the file at the
end if it opened it. -/
def linesOf (id : Nat) (formats : Array Value) (closes : Bool) : Proc Value :=
  Proc.alter fun h => h.newBound ⟨.ioLinesStep, #[.file id, .bool closes] ++ formats⟩

/-- The lines of a handle. -/
def lines (a : Args) : Proc Ending := do
  let (id, _) ← handle a 1
  Ending.value (← linesOf id (a.from_ 2) false)

/-- The lines of a file, or of the default input. -/
def linesDefault (a : Args) : Proc Ending := do
  match ← a.text? 1 with
  | none => do
    let id ← Proc.read Heap.defaultInput
    discard (opened id)
    Ending.value (← linesOf id (a.from_ 2) false)
  | some path => do
    match ← openOrFail path.beforeZero "r" with
    | .file id => do
      let f ← linesOf id (a.from_ 2) true
      Ending.values #[f, .nil, .nil, .file id]
    | _ => Ending.values #[]

/-- The next line of a function made by `lines`. -/
def linesStep (own : Array Value) : Proc Ending := do
  match own.getD 0 .nil with
  | .file id => do
    match ← fileAt id with
    | none => Proc.failWith "file is already closed"
    | some f =>
      if !f.isOpen then Proc.failWith "file is already closed"
      else
        match ← fun k => readFormats id f (own.extract 2 own.size) 2 k with
        | .results vs => do
          if (vs.getD 0 .nil).isNil && (own.getD 1 .nil).isTrue then
            match ← fileAt id with
            | some f => setFile id { f with isOpen := false }
            | none => pure ()
          Ending.values vs
        | e => return e
  | _ => Ending.values #[]

/-! ## Default streams -/

/-- The default stream, or another one in its place. -/
def defaultStream (mode : String) (get : Heap → Nat) (set : Heap → Nat → Heap) (a : Args) : Proc Ending := do
  if !a.isAbsent 1 then
    match a.get 1 with
    | .file id => do
      discard (handle a 1)
      Proc.update fun h => set h id
    | _ => do
      match ← openOrFail (← a.text 1).beforeZero mode with
      | .file id => Proc.update fun h => set h id
      | _ => pure ()
  Ending.value (.file (← Proc.read get))

/-- The default input. -/
def input : Args → Proc Ending :=
  defaultStream "r" Heap.defaultInput fun h id => { h with defaultInput := id }

/-- The default output. -/
def output : Args → Proc Ending :=
  defaultStream "w" Heap.defaultOutput fun h id => { h with defaultOutput := id }

/-- A file without a name. -/
def temporary (_ : Args) : Proc Ending := do
  let v ← Proc.alter fun h => h.newFile ⟨.nameless, ⟨true, true, false⟩, 0, true⟩
  Ending.value v

/-- Has a command run with a stream to it or from it, which is not to be had. -/
def runProgram (a : Args) : Proc Ending := do
  Proc.process (.runs (← a.text 1).beforeZero)
  Proc.failWith "'popen' not supported"

end NpcDialog.Lua.Streams
