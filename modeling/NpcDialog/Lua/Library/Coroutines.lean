import NpcDialog.Lua.Library.Operations

/-!
# Coroutines

The functions of the table `coroutine`.

* `Coroutines.create`, `Coroutines.wrap` — new coroutines.
* `Coroutines.resume`, `Coroutines.yield` — going on and stopping.
* `Coroutines.close` — ending one for good.
-/

namespace NpcDialog.Lua.Coroutines

open Bytes (ofText)

/-- The coroutine of an argument. -/
def thread (a : Args) (n : Nat) : Proc Nat :=
  match a.get n with
  | .thread id => pure id
  | _ => a.mismatch n "thread"

/-- A new coroutine. -/
def create (a : Args) : Proc Ending := do
  let f ← a.function 1
  let id : Nat ← fun k => .create f k
  Ending.value (.thread id)

/-- A function that resumes a new coroutine. -/
def wrap (a : Args) : Proc Ending := do
  let f ← a.function 1
  let id : Nat ← fun k => .create f k
  Ending.value (← Proc.alter fun h => h.newBound ⟨.coWrapStep, #[.thread id]⟩)

/-- Resumes a coroutine; the first result tells whether it did not fail. -/
def resume (a : Args) : Proc Ending := do
  let id ← thread a 1
  let r : Except Value (Array Value) ← fun k => .resume id (a.from_ 2) k
  match r with
  | .ok vs => Ending.values (#[.bool true] ++ vs)
  | .error v => Ending.values #[.bool false, v]

/-- Resumes the coroutine of a function made by `wrap`.  A fault is passed on,
with the caller's place in front of a message. -/
def wrapStep (own : Array Value) (a : Args) : Proc Ending := do
  match own.getD 0 .nil with
  | .thread id => do
    let r : Except Value (Array Value) ← fun k => .resume id a.values k
    match r with
    | .ok vs => Ending.values vs
    | .error v => do
      let isBroken : Bool ← fun k => .broken id k
      let v ← if isBroken then do
          let left : Option Value ← fun k => .close id k
          pure (left.getD v)
        else pure v
      match v with
      | .str s => Proc.fail (.message 1 s)
      | v => Proc.fail (.value v)
  | _ => Ending.values #[]

/-- Suspends the running coroutine. -/
def yield (a : Args) : Proc Ending := return .suspend a.values

/-- The word for how a coroutine looks. -/
def livenessText : Liveness → String
  | .suspended => "suspended"
  | .running => "running"
  | .normal => "normal"
  | .dead => "dead"

/-- How a coroutine looks. -/
def status (a : Args) : Proc Ending := do
  let id ← thread a 1
  let s : Liveness ← fun k => .liveness id k
  Ending.value (.ofText (livenessText s))

/-- The running coroutine, and whether it is the main one. -/
def running (_ : Args) : Proc Ending := do
  let id : Nat ← fun k => .running k
  Ending.values #[.thread id, .bool (id == 0)]

/-- Can a coroutine be suspended where it is? -/
def isYieldable (a : Args) : Proc Ending := do
  let id ← if a.isMissing 1 then fun k => .running k else thread a 1
  let b : Bool ← fun k => .canSuspend id k
  Ending.value (.bool b)

/-- Ends a coroutine that is suspended or over. -/
def close (a : Args) : Proc Ending := do
  let id ← thread a 1
  let s : Liveness ← fun k => .liveness id k
  match s with
  | .suspended | .dead => do
    let left : Option Value ← fun k => .close id k
    match left with
    | none => Ending.value (.bool true)
    | some v => Ending.values #[.bool false, v]
  | s => Proc.failWith s!"cannot close a {livenessText s} coroutine"

end NpcDialog.Lua.Coroutines
