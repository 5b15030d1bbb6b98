import NpcDialog.Lua.Fault
import NpcDialog.Lua.Metatable

/-!
# Routines

What a built-in function does, as data: a chain of steps, each of which the
machine performs and answers.  A routine never sees the machine.  It works on
the heap, asks for calls of other functions and of callbacks, and at the end
says what becomes of its call.

* `Ending` — what becomes of the call.
* `Routine` — a chain of steps.
* `Proc` — a routine under construction, that still owes a value.
-/

namespace NpcDialog.Lua

/-- Which results of a call in tail position count. -/
inductive After where
  /-- All of them. -/
  | all
  /-- The first three. -/
  | firstThree

/-- What becomes of the call of a built-in function. -/
inductive Ending where
  /-- It returns values. -/
  | results (vs : Array Value)
  /-- It returns the results of another call, which may suspend. -/
  | call (f : Value) (args : Array Value) (after : After)
  /-- It returns how another call ended; a handler sees a fault first. -/
  | protect (f : Value) (args : Array Value) (handler : Option Value)
  /-- It suspends the running coroutine. -/
  | suspend (vs : Array Value)

/-- How a coroutine looks from outside. -/
inductive Liveness where
  /-- It can be resumed. -/
  | suspended
  /-- It is the one that runs. -/
  | running
  /-- It waits for another one that it resumed. -/
  | normal
  /-- It is over. -/
  | dead
  deriving DecidableEq

/-- A chain of steps, each with what follows for its answer. -/
inductive Routine : Type 1 where
  /-- The end. -/
  | done (e : Ending)
  /-- A fault. -/
  | fail (f : LibFault)
  /-- Work on the heap. -/
  | heap {α : Type} (f : Heap → α × Heap) (k : α → Routine)
  /-- A call that cannot be suspended. -/
  | call (f : Value) (args : Array Value) (k : Array Value → Routine)
  /-- A call that cannot be suspended and whose faults are answers too. -/
  | attempt (f : Value) (args : Array Value) (k : Except Value (Array Value) → Routine)
  /-- A call of a callback; the answer tells whether to suspend. -/
  | host (c : Callback) (args : Array Value) (k : Bool → Routine)
  /-- A use of the process. -/
  | process (u : ProcessUse) (k : Routine)
  /-- How many more nested calls are allowed? -/
  | room (k : Nat → Routine)
  /-- Makes a function of compiled code, in an environment or else in that of the
  globals. -/
  | install (c : Chunk) (env : Option Value) (k : Value → Routine)
  /-- The code of a function, if it has any, without its notes or with them. -/
  | code (f : Value) (strip : Bool) (k : Option FunctionCode → Routine)
  /-- The text of the place that is `level` calls up. -/
  | place (level : Nat) (k : Bytes → Routine)
  /-- A new coroutine. -/
  | create (f : Value) (k : Nat → Routine)
  /-- Runs a coroutine until it returns, suspends or fails. -/
  | resume (thread : Nat) (args : Array Value) (k : Except Value (Array Value) → Routine)
  /-- How a coroutine looks. -/
  | liveness (thread : Nat) (k : Liveness → Routine)
  /-- Did a coroutine end with a fault that nobody has taken yet? -/
  | broken (thread : Nat) (k : Bool → Routine)
  /-- Closes a coroutine; the answer is the fault it is left with. -/
  | close (thread : Nat) (k : Option Value → Routine)
  /-- The running coroutine. -/
  | running (k : Nat → Routine)
  /-- Can a coroutine be suspended where it is? -/
  | canSuspend (thread : Nat) (k : Bool → Routine)
  /-- The bytes that are in use now. -/
  | memory (k : Nat → Routine)
  /-- Collects what nothing reaches. -/
  | collect (k : Routine)

/-- A routine that still owes a value to what follows it. -/
def Proc (α : Type) : Type 1 := (α → Routine) → Routine

instance : Monad Proc where
  pure a := fun k => k a
  bind p f := fun k => p fun a => f a k

namespace Proc

/-- Something the heap tells. -/
@[inline] def read {α : Type} (f : Heap → α) : Proc α := fun k => .heap (fun h => (f h, h)) k

/-- A change of the heap with an answer. -/
@[inline] def alter {α : Type} (f : Heap → α × Heap) : Proc α := fun k => .heap f k

/-- A change of the heap. -/
@[inline] def update (f : Heap → Heap) : Proc Unit := fun k => .heap (fun h => ((), f h)) k

/-- A fault. -/
def fail {α : Type} (f : LibFault) : Proc α := fun _ => .fail f

/-- A fault with a message; the place of the caller goes in front. -/
def failWith {α : Type} (text : String) : Proc α := fail (.message 1 (Bytes.ofText text))

/-- A call that cannot be suspended. -/
def call (f : Value) (args : Array Value) : Proc (Array Value) := fun k => .call f args k

/-- The first result of a call that cannot be suspended. -/
def callOne (f : Value) (args : Array Value) : Proc Value := fun k => .call f args fun vs => k (vs.getD 0 .nil)

/-- A call that cannot be suspended and whose faults are answers too. -/
def attempt (f : Value) (args : Array Value) : Proc (Except Value (Array Value)) :=
  fun k => .attempt f args k

/-- A use of the process. -/
def process (u : ProcessUse) : Proc Unit := fun k => .process u (k ())

/-- Notes bytes that are taken. -/
def charge (n : Nat) : Proc Unit := update fun h => h.charge n

/-- Fails unless so many bytes can be had at all. -/
def reserve (n : Nat) : Proc Unit := do
  let limit ← read Heap.limit
  if 0x100000000 ≤ n || (limit != 0 && limit ≤ n) then fail .memory else pure ()

/-- Repeats a step over the numbers from `i` on, `n` times. -/
def forRange (step : Nat → Proc Unit) : Nat → Nat → Proc Unit
  | 0, _ => pure ()
  | n + 1, i => do
    step i
    forRange step n (i + 1)

end Proc

/-- The end of a routine that returns values. -/
@[inline] def Ending.values (vs : Array Value) : Proc Ending := pure (.results vs)

/-- The end of a routine that returns one value. -/
@[inline] def Ending.value (v : Value) : Proc Ending := pure (.results #[v])

/-- The routine of a finished construction. -/
def Routine.of (p : Proc Ending) : Routine := p .done

end NpcDialog.Lua
