import NpcDialog.Lua.Code.Archive
import NpcDialog.Lua.Code.Compiler
import NpcDialog.Script.Failure

/-!
# Programs

A machine as its host sees it: made with all libraries in it, given code, asked
for fields of tables and for the results of calls.

* `Machine.fresh` — a machine with all libraries.
* `Machine.isOverfull` — is more memory in use than there may be?
* `Machine.loadChunk` — a function from a chunk.
* `Machine.field` — a field of a value.
* `Machine.callFrom` — a call by the host.
-/

namespace NpcDialog.Lua.Machine

open Bytes (ofText)

/-- A machine with all libraries in it and nothing to do. -/
def fresh (files : FileTree) : Machine := .idle (.fresh files)

/-- The machine with a bound for the memory in use, if there is one. -/
def limited (m : Machine) (limit : Option Nat) : Machine :=
  { m with heap := { m.heap with limit := limit.getD 0 } }

/-- Is more memory in use than there may be? -/
def isOverfull (m : Machine) : Bool :=
  m.heap.limit != 0 && m.heap.limit < m.heap.used && m.heap.limit < m.liveBytes

/-- A new function from a chunk.  Its first captured variable is the table of
globals, the others have no value. -/
def loadChunk (m : Machine) (c : Chunk) : Value × Machine := m.install c (.table m.heap.globals)

/-- The room for nested constructs that the compiler has when the host calls
it. -/
def compileRoom : Nat := 200

/-- A field of a value.  A fault counts as the value of absence. -/
def field (m : Machine) (v : Value) (name : String) : Value × Machine :=
  match (m.performMain (Proc.index v (.ofText name))).alone with
  | (.ok found, m) => (found, m)
  | (.error _, m) => (.nil, m)

/-- A call by the host. -/
def callFrom (m : Machine) (f : Value) (args : Array Value) :
    Conversing (Except Failure (Array Value) × Machine) := do
  match ← m.callMain f args with
  | (.ok vs, m) => return (.ok vs, m)
  | (.error f, m) => return (.error (.ofFault f), m)

/-- The results of a text that the host itself has written, nothing if it
fails. -/
def resultsOf (m : Machine) (name text : String) (args : Array Value) : Array Value × Machine :=
  match Chunk.compile (ofText name) (ofText text) compileRoom with
  | .error _ => (#[], m)
  | .ok c =>
    let (f, m) := m.loadChunk c
    match (m.callMain f args).alone with
    | (.ok vs, m) => (vs, m)
    | (.error _, m) => (#[], m)

/-- The machine with another value of a global variable. -/
def setGlobal (m : Machine) (name : String) (v : Value) : Machine :=
  m.withHeap (m.heap.rawSetStr m.heap.globals (ofText name) v)

end NpcDialog.Lua.Machine
