import NpcDialog.Lua.Code
import NpcDialog.Lua.Heap

/-!
# The store

The heap together with what only the machine itself looks into: the functions of
the program, each with its code, and the variables they capture.  Built-in
functions work on the heap alone, so nothing they do depends on code.

* `Closure`, `Cell` — a function of the program, a captured variable.
* `Store` — the heap with functions and captured variables.
* `Store.makeFunction` — a function from compiled code.
-/

namespace NpcDialog.Lua

/-- A function of the program with its captured variables. -/
structure Closure where
  /-- The code. -/
  code : FunctionCode
  /-- Captured variables, by their cells. -/
  cells : Array Nat

/-- A captured variable. -/
inductive Cell where
  /-- The variable still lives in a slot of a thread's stack. -/
  | live (thread slot : Nat)
  /-- The variable has a value of its own. -/
  | closed (v : Value)

/-- The heap with functions and captured variables. -/
structure Store extends Heap where
  /-- Functions. -/
  closures : Array Closure
  /-- Captured variables. -/
  cells : Array Cell

namespace Store

/-- A store with no functions and no captured variables. -/
def ofHeap (h : Heap) : Store := { h with closures := #[], cells := #[] }

/-- The store with another heap. -/
@[inline] def withHeap (s : Store) (h : Heap) : Store := { s with toHeap := h }

/-- The store with more bytes in use. -/
@[inline] def charge (s : Store) (n : Nat) : Store := { s with used := s.used + n }

/-- A new function. -/
def newClosure (s : Store) (c : Closure) : Value × Store :=
  (.closure s.closures.size,
    { s with closures := s.closures.push c, used := s.used + 32 + 8 * c.cells.size })

/-- A new captured variable. -/
def newCell (s : Store) (c : Cell) : Nat × Store :=
  (s.cells.size, { s with cells := s.cells.push c, used := s.used + 40 })

/-- A new function from compiled code.  Its first captured variable has a value,
the others have none. -/
def makeFunction (s : Store) (f : FunctionCode) (first : Value) : Value × Store :=
  let (cells, s) := (List.range f.captures.size).foldl
    (fun (acc : Array Nat × Store) i =>
      let (id, s) := acc.2.newCell (.closed (if i == 0 then first else .nil))
      (acc.1.push id, s))
    (#[], s)
  s.newClosure ⟨f, cells⟩

end Store

end NpcDialog.Lua
