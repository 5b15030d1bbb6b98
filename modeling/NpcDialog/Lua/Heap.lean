import NpcDialog.Files
import NpcDialog.Lua.Table

/-!
# The heap

What a running program can share and change and its built-in functions can
see: tables, built-in functions with values, files.  Things with an identity
are numbered in the order in which they are made.

* `Heap` — the shared state of a program.
* `Heap.metatable?` — the metatable of a value.
* `Heap.metamethod` — a field of the metatable.
* `Heap.setMetatable` — another metatable for a table.
* `Heap.weakness` — are references in a table weak?
* `Heap.typeName` — the name of a value's type in error messages.
* `Heap.charge` — what an allocation adds to the memory in use.
-/

namespace NpcDialog.Lua

open Bytes (ofText)

/-- A built-in function with values of its own. -/
structure Bound where
  /-- The function. -/
  builtin : Builtin
  /-- Its values. -/
  values : Array Value

/-- What can be done with an open file. -/
structure FileMode where
  /-- Reading. -/
  reads : Bool
  /-- Writing. -/
  writes : Bool
  /-- Writing only at the end. -/
  appends : Bool

/-- The standard streams. -/
inductive StandardStream where
  /-- Standard input. -/
  | input
  /-- Standard output. -/
  | output
  /-- Standard error. -/
  | error
  deriving DecidableEq

/-- What a file handle stands for. -/
inductive FileTarget where
  /-- A standard stream. -/
  | stream (s : StandardStream)
  /-- A file of the file tree. -/
  | path (p : Bytes)
  /-- A directory, which cannot be read. -/
  | directory
  /-- A file without a name, of which nothing is kept. -/
  | nameless

/-- An open or closed file. -/
structure OpenFile where
  /-- What it stands for. -/
  target : FileTarget
  /-- What can be done with it. -/
  mode : FileMode
  /-- Index of the next byte. -/
  position : Nat
  /-- Is it open? -/
  isOpen : Bool

/-- The state of the generator of random numbers. -/
structure RandomState where
  /-- First word. -/
  s0 : UInt64
  /-- Second word. -/
  s1 : UInt64
  /-- Third word. -/
  s2 : UInt64
  /-- Fourth word. -/
  s3 : UInt64

/-- How unused memory is collected. -/
structure Collector where
  /-- Is it collected without being asked for? -/
  runs : Bool
  /-- Does the collector work by generations? -/
  byGenerations : Bool
  /-- How long it waits, in percent. -/
  pause : Nat
  /-- How fast it works, in percent. -/
  speed : Nat

namespace Collector

/-- The collector of a new program. -/
def initial : Collector := ⟨true, false, 200, 100⟩

/-- A number of percent as the collector keeps it, in a byte and a multiple of four. -/
def kept (n : Int64) : Nat := (n.toInt32.toInt.tdiv 4 % 256).toNat * 4

/-- The name of the way in which the collector works. -/
def mode (c : Collector) : String := if c.byGenerations then "generational" else "incremental"

end Collector

/-- The shared state of a program. -/
structure Heap where
  /-- Tables. -/
  tables : Array Table
  /-- Built-in functions with values of their own. -/
  bounds : Array Bound
  /-- Files that were opened. -/
  openFiles : Array OpenFile
  /-- The file tree. -/
  files : FileTree
  /-- The table of globals. -/
  globals : Nat
  /-- The table of loaded libraries. -/
  loaded : Nat
  /-- The metatable of strings. -/
  stringMeta : Option Nat
  /-- The metatable of files. -/
  fileMeta : Option Nat
  /-- The metatables of handles, by the handle's place in the list of them. -/
  handleMetas : Array Nat
  /-- The default input and output. -/
  defaultInput : Nat
  /-- The default output. -/
  defaultOutput : Nat
  /-- The generator of random numbers. -/
  random : RandomState
  /-- Bytes in use, where nothing that was dropped has been collected yet. -/
  used : Nat
  /-- The most bytes that may be in use; zero for no bound. -/
  limit : Nat
  /-- The tables that are still to be finalized, those last that were marked first. -/
  marked : List Nat
  /-- Is something being finalized? -/
  finalizing : Bool
  /-- How unused memory is collected. -/
  collector : Collector

namespace Heap

/-- A heap with nothing in it. -/
def empty (files : FileTree) : Heap where
  tables := #[]
  bounds := #[]
  openFiles := #[]
  files := files
  globals := 0
  loaded := 0
  stringMeta := none
  fileMeta := none
  handleMetas := #[]
  defaultInput := 0
  defaultOutput := 1
  random := ⟨0x9E3779B97F4A7C15, 0xBF58476D1CE4E5B9, 0x94D049BB133111EB, 0x2545F4914F6CDD1D⟩
  used := 0
  limit := 0
  marked := []
  finalizing := false
  collector := .initial

instance : Inhabited Heap := ⟨Heap.empty FileTree.empty⟩

/-! ## Memory -/

/-- Bytes a table takes by itself. -/
def tableCost : Nat := 56

/-- Bytes an element of a table takes. -/
def elementCost : Nat := 16

/-- Bytes a node of a table takes. -/
def nodeCost : Nat := 40

/-- Bytes a call of a function takes besides its registers. -/
def callCost : Nat := 64

/-- Bytes a string takes. -/
def stringCost (s : Bytes) : Nat := s.size + 24

/-- Bytes the parts of a table take. -/
def sizeOfTable (t : Table) : Nat :=
  tableCost + elementCost * t.array.size + nodeCost * t.nodes.size

/-- The heap with more bytes in use. -/
@[inline] def charge (h : Heap) (n : Nat) : Heap := { h with used := h.used + n }

/-! ## Tables -/

/-- The table of a number. -/
@[inline] def tableAt (h : Heap) (id : Nat) : Table := h.tables.getD id Table.empty

/-- A new table. -/
def newTable (h : Heap) (t : Table) : Nat × Heap :=
  (h.tables.size, { h with tables := h.tables.push t, used := h.used + sizeOfTable t })

/-- Changes a table whose sizes stay as they are. -/
@[inline] def modifyTable (h : Heap) (id : Nat) (f : Table → Table) : Heap :=
  { h with tables := h.tables.modify id f }

/-- Reads a field, whatever the metatable says. -/
@[inline] def rawGet (h : Heap) (id : Nat) (key : Value) : Value := (h.tableAt id).get key

/-- Reads a named field, whatever the metatable says. -/
@[inline] def rawGetStr (h : Heap) (id : Nat) (name : Bytes) : Value := (h.tableAt id).getStr name

/-- Writes a field whose key is in normal form, and notes how the table
grew. -/
def rawSetNormal (h : Heap) (id : Nat) (key value : Value) : Heap :=
  let before := sizeOfTable (h.tableAt id)
  let h := h.modifyTable id fun t => t.setNormal key value
  let after := sizeOfTable (h.tableAt id)
  if before < after then h.charge (after - before) else h

/-- Writes a field, whatever the metatable says. -/
def rawSet (h : Heap) (id : Nat) (key value : Value) : Except Table.KeyFault Heap :=
  match Table.checkKey key with
  | .ok key => .ok (h.rawSetNormal id key value)
  | .error e => .error e

/-- Writes a named field, whatever the metatable says. -/
def rawSetStr (h : Heap) (id : Nat) (name : Bytes) (value : Value) : Heap :=
  h.rawSetNormal id (.str name) value

/-- A border of a table, remembered for the next time. -/
def border (h : Heap) (id : Nat) : Nat × Heap :=
  let t := h.tableAt id
  let (n, hint) := t.border
  if hint == t.hint then (n, h) else (n, h.modifyTable id fun t => { t with hint })

/-! ## Metatables -/

/-- The metatable of a value. -/
def metatable? (h : Heap) : Value → Option Nat
  | .table id => (h.tableAt id).metatable
  | .str _ => h.stringMeta
  | .file _ => h.fileMeta
  | .handle k => h.handleMetas[k.ctorIdx]?
  | _ => none

/-- The metamethod of a value for an event, the value of absence if there is
none. -/
def metamethod (h : Heap) (v : Value) (event : String) : Value :=
  match h.metatable? v with
  | some m => h.rawGetStr m (ofText event)
  | none => .nil

/-- Gives a table another metatable, or none.  From then on the table is to be finalized if
the metatable tells how. -/
def setMetatable (h : Heap) (id : Nat) (chosen : Option Nat) : Heap :=
  let h := h.modifyTable id fun t => { t with metatable := chosen }
  if (h.metamethod (.table id) "__gc").isNil || h.marked.contains id then h
  else { h with marked := id :: h.marked }

/-- Are the keys of a table weak, and are its values? -/
def weakness (h : Heap) (id : Nat) : Bool × Bool :=
  match h.metamethod (.table id) "__mode" with
  | .str s =>
    let mode := s.beforeZero
    ((mode.find? (ofText "k") 0).isSome, (mode.find? (ofText "v") 0).isSome)
  | _ => (false, false)

/-- Takes the fields whose values are gone from tables with weak values. -/
def withoutValues (h : Heap) (ids : List Nat) (gone : Value → Bool) : Heap :=
  ids.foldl (fun h id =>
    if (h.weakness id).2 then h.modifyTable id fun t => t.withoutValues gone else h) h

/-- Takes the fields whose keys are gone from tables with weak keys. -/
def withoutKeys (h : Heap) (ids : List Nat) (gone : Value → Bool) : Heap :=
  ids.foldl (fun h id =>
    if (h.weakness id).1 then h.modifyTable id fun t => t.withoutKeys gone else h) h

/-- The name of a value's type in error messages: what the metatable calls it,
or its plain type. -/
def typeName (h : Heap) (v : Value) : Bytes :=
  match v with
  | .table _ | .file _ | .handle _ =>
    match h.metamethod v "__name" with
    | .str s => s
    | _ => ofText v.typeName
  | _ => ofText v.typeName

/-! ## Functions -/

/-- A new built-in function with values of its own. -/
def newBound (h : Heap) (b : Bound) : Value × Heap :=
  (.bound h.bounds.size,
    { h with bounds := h.bounds.push b, used := h.used + 32 + 16 * b.values.size })

/-- A new file handle. -/
def newFile (h : Heap) (f : OpenFile) : Value × Heap :=
  (.file h.openFiles.size, { h with openFiles := h.openFiles.push f, used := h.used + 64 })

end Heap

end NpcDialog.Lua
