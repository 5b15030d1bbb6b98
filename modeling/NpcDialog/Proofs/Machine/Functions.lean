import NpcDialog.Script.Program

/-!
# Functions made of compiled code

What a machine holds after a function was made of compiled code: the function has
that code, its first captured variable has the value that was given for it, and
the others have none.

* `Machine.captured?` — the value of a captured variable.
* `Store.makeFunction_eq` — the store with one more function.
* `Machine.codeOf_loadChunk`, `Machine.captured?_loadChunk` — what a loaded function is.
-/

namespace NpcDialog.Lua

/-- The value that a captured variable has in a function that was just made. -/
def Store.firstOnly (first : Value) (i : Nat) : Value := if i == 0 then first else .nil

/-- The induction is on the number of variables. -/
theorem Store.foldl_newCell (s : Store) (value : Nat → Value) (n : Nat) :
    (List.range n).foldl (fun (acc : Array Nat × Store) i =>
        let (id, s) := acc.2.newCell (.closed (value i))
        (acc.1.push id, s)) (#[], s) =
      ((Array.range n).map (s.cells.size + ·),
        { s with
          cells := s.cells ++ (Array.range n).map fun i => .closed (value i)
          used := s.used + 40 * n }) := by
  induction n with
  | zero => simp [Array.range]
  | succ n ih =>
    rw [List.range_succ, List.foldl_append, ih]
    simp [newCell, Array.range_succ, Nat.mul_add, Nat.add_assoc]

/-- The store with one more function, whose first captured variable has a value. -/
theorem Store.makeFunction_eq (s : Store) (f : FunctionCode) (first : Value) :
    s.makeFunction f first = (.closure s.closures.size,
      { s with
        closures := s.closures.push ⟨f, (Array.range f.captures.size).map (s.cells.size + ·)⟩
        cells := s.cells ++ (Array.range f.captures.size).map fun i => .closed (firstOnly first i)
        used := s.used + 40 * f.captures.size + 32 + 8 * f.captures.size }) := by
  have cells := s.foldl_newCell (firstOnly first) f.captures.size
  unfold firstOnly at cells ⊢
  rw [makeFunction, cells]
  simp [newClosure]

namespace Machine

/-- The value of a variable that a function of the program captures. -/
def captured? (m : Machine) (f : Value) (i : Nat) : Option Value :=
  match f with
  | .closure id => do
    let c ← m.heap.closures[id]?
    let cell ← c.cells[i]?
    return m.readCell cell
  | _ => none

/-- A loaded function has the code that was loaded. -/
theorem codeOf_loadChunk (m : Machine) (c : Chunk) :
    (m.loadChunk c).2.codeOf (m.loadChunk c).1 = some c := by
  simp [loadChunk, install, Store.makeFunction_eq, codeOf, Store.charge]

/-- The first captured variable of a loaded function is the table of globals, and the
others have no value. -/
theorem captured?_loadChunk (m : Machine) (c : Chunk) {i : Nat} (captured : i < c.captures.size) :
    (m.loadChunk c).2.captured? (m.loadChunk c).1 i =
      some (if i = 0 then .table m.heap.globals else .nil) := by
  simp [loadChunk, install, Store.makeFunction_eq, captured?, Store.charge, captured, readCell,
    Store.firstOnly]

end Machine

end NpcDialog.Lua
