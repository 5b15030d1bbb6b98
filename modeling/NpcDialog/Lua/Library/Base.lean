import NpcDialog.Lua.Library.Operations

/-!
# Basic functions

The functions among the globals that have to do with values as such: their
types and texts, raw access to tables, metatables, faults and protected calls.

* `Base.toNumber` — numerals in any base.
* `Base.error`, `Base.pcall`, `Base.xpcall` — faults.
* `Base.next`, `Base.pairs`, `Base.ipairs` — traversal.
* `Base.collect` — what the collector of unused memory is asked for.
-/

namespace NpcDialog.Lua.Base

open Bytes (ofText)

/-- Raises its first argument; a string gets the place of a caller in front. -/
def error (a : Args) : Proc Ending := do
  let level ← a.integerOr 2 1
  match a.get 1 with
  | .str s => if 0 < level then Proc.fail (.message level.toInt.toNat s) else Proc.fail (.value (.str s))
  | v => Proc.fail (.value v)

/-- Returns its arguments if the first counts as true, and fails with the second
otherwise. -/
def assert (a : Args) : Proc Ending := do
  if (a.get 1).isTrue then Ending.values a.values
  else
    discard (a.any 1)
    match (if a.isMissing 2 then .ofText "assertion failed!" else a.get 2) with
    | .str s => Proc.fail (.message 1 s)
    | v => Proc.fail (.value v)

/-- A call whose faults are results. -/
def pcall (a : Args) : Proc Ending := do
  discard (a.any 1)
  return .protect (a.get 1) (a.from_ 2) none

/-- A call whose faults are results after a handler has seen them. -/
def xpcall (a : Args) : Proc Ending := do
  let handler ← a.function 2
  return .protect (a.get 1) (a.from_ 3) (some handler)

/-- The name of a type. -/
def type (a : Args) : Proc Ending := do Ending.value (.ofText (← a.any 1).typeName)

/-- The text of a value. -/
def toText (a : Args) : Proc Ending := do
  let v ← a.any 1
  Proc.returnString (← Proc.show v)

/-- Writes the texts of its arguments to the standard output, each as soon as it is
known. -/
def print (a : Args) : Proc Ending := do
  a.values.toList.zipIdx.forM fun (v, i) => do
    let s ← Proc.show v
    Proc.process (.prints (if i == 0 then s else ofText "\t" ++ s))
  Proc.process (.prints (ofText "\n"))
  Ending.values #[]

/-- Takes a warning that nobody reads. -/
def warn (a : Args) : Proc Ending := do
  discard (a.text 1)
  (List.range (a.size - 1)).forM fun i => discard (a.text (i + 2))
  Ending.values #[]

/-- The value of a digit in a base above ten. -/
def digitValue (c : UInt8) : Nat :=
  if Bytes.isDigit c then (c - 48).toNat else (Bytes.upper c).toNat - 65 + 10

/-- The value of the digits from index `i` on and the index behind them; absent
if one of them is too great.  The first argument bounds them. -/
def digitsFrom (s : Bytes) (base : Nat) : Nat → Nat → Nat → Option (Nat × Nat)
  | 0, i, value => some (value, i)
  | n + 1, i, value =>
    let c := s.byteAt i
    if i < s.size && Bytes.isAlnum c then
      let d := digitValue c
      if base ≤ d then none else digitsFrom s base n (i + 1) ((value * base + d) % 0x10000000000000000)
    else some (value, i)

/-- The integer of a numeral in a base. -/
def inBase (s : Bytes) (base : Nat) : Option Int64 := do
  let start := Numeral.skipSpace s 0
  let negative := s.byteAt start == 45
  let i := if negative || s.byteAt start == 43 then start + 1 else start
  if !Bytes.isAlnum (s.byteAt i) then none
  else
    let (value, stop) ← digitsFrom s base (s.size + 1) i 0
    if Numeral.skipSpace s stop != s.size then none
    else
      let n := Int64.ofNat value
      some (if negative then 0 - n else n)

/-- The number of a numeral. -/
def toNumber (a : Args) : Proc Ending := do
  if a.isAbsent 2 then
    match a.get 1 with
    | .int n => Ending.value (.int n)
    | .float x => Ending.value (.float x)
    | .str s => Ending.value ((Numeral.read? s).elim .nil Value.ofNumber)
    | _ => do
      discard (a.any 1)
      Ending.value .nil
  else
    let base ← a.integer 2
    match a.get 1 with
    | .str s =>
      if base < 2 || 36 < base then Args.refuse 2 "base out of range"
      else Ending.value ((inBase s base.toInt.toNat).elim .nil Value.int)
    | _ => a.mismatch 1 "string"

/-- Arguments behind the first ones, or their number. -/
def select (a : Args) : Proc Ending := do
  let count := a.size
  if (match a.get 1 with | .str s => s.byteAt 0 == 35 && s.size != 0 | _ => false) then
    Ending.value (.ofNat (count - 1))
  else
    let n := (← a.integer 1).toInt
    let i : Int := if n < 0 then count + n else if (count : Int) < n then count else n
    if i < 1 then Args.refuse 1 "index out of range" else Ending.values (a.from_ (i.toNat + 1))

/-! ## Tables and metatables -/

/-- Are two values the same, whatever their metatables say? -/
def rawEqual (a : Args) : Proc Ending := do
  let x ← a.any 1
  let y ← a.any 2
  Ending.value (.bool (Value.same x y))

/-- The length of a table or string, whatever the metatable says. -/
def rawLength (a : Args) : Proc Ending := do
  match a.get 1 with
  | .table id => Ending.value (.ofNat (← Proc.alter fun h => h.border id))
  | .str s => Ending.value (.ofNat s.size)
  | _ => a.mismatch 1 "table or string"

/-- A field, whatever the metatable says. -/
def rawGet (a : Args) : Proc Ending := do
  let id ← a.table 1
  let key ← a.any 2
  Ending.value (← Proc.read fun h => h.rawGet id key)

/-- Writes a field, whatever the metatable says. -/
def rawSet (a : Args) : Proc Ending := do
  let id ← a.table 1
  let key ← a.any 2
  let v ← a.any 3
  Proc.rawSet id key v
  Ending.value (.table id)

/-- The metatable of a value, or what it shows instead. -/
def getMetatable (a : Args) : Proc Ending := do
  let v ← a.any 1
  match ← Proc.read fun h => h.metatable? v with
  | none => Ending.value .nil
  | some m => do
    let shown ← Proc.read fun h => h.rawGetStr m (ofText "__metatable")
    Ending.value (if shown.isNil then .table m else shown)

/-- Changes the metatable of a table. -/
def setMetatable (a : Args) : Proc Ending := do
  let id ← a.table 1
  let chosen ← match a.get 2 with
    | .table m => pure (some m)
    | .nil => if a.isMissing 2 then a.mismatch 2 "nil or table" else pure none
    | _ => a.mismatch 2 "nil or table"
  if (← Proc.metamethod (.table id) "__metatable").isNil then
    Proc.update fun h => h.setMetatable id chosen
    Ending.value (.table id)
  else Proc.failWith "cannot change a protected metatable"

/-! ## Traversal -/

/-- The field behind a key. -/
def next (a : Args) : Proc Ending := do
  let id ← a.table 1
  match ← Proc.read fun h => (h.tableAt id).next? (a.get 2) with
  | none => Proc.failPlain (ofText "invalid key to 'next'")
  | some none => Ending.value .nil
  | some (some (k, v)) => Ending.values #[k, v]

/-- What a loop over all fields needs. -/
def pairs (a : Args) : Proc Ending := do
  let v ← a.any 1
  let handler ← Proc.metamethod v "__pairs"
  if handler.isNil then Ending.values #[.builtin .next, v, .nil]
  else return .call handler #[v] .firstThree

/-- What a loop over elements needs. -/
def ipairs (a : Args) : Proc Ending := do
  let v ← a.any 1
  Ending.values #[.builtin .ipairsStep, v, .int 0]

/-- The element behind an index. -/
def ipairsStep (a : Args) : Proc Ending := do
  let i := (← a.integer 2) + 1
  let v ← Proc.element (a.get 1) i
  if v.isNil then Ending.value .nil else Ending.values #[.int i, v]

/-! ## Memory -/

/-- What the collector answers.  It does not answer while something is being finalized. -/
def answered (answer : Proc Ending) : Proc Ending := do
  if ← Proc.read Heap.finalizing then Ending.value .nil else answer

/-- The collector's settings are changed; they are answered as they were. -/
def adjust (answer : Collector → Value) (change : Collector → Collector) : Proc Ending :=
  answered do
    let before ← Proc.alter fun h => (h.collector, { h with collector := change h.collector })
    Ending.value (answer before)

/-- What the collector of unused memory is asked for.  A step of its work is as much as a whole
round. -/
def collect (a : Args) : Proc Ending := do
  let word ← a.option 1
    ["stop", "restart", "collect", "count", "step", "setpause", "setstepmul", "isrunning",
      "generational", "incremental"] (some "collect")
  match word with
  | "count" => answered do
    let used : Nat ← fun k => .memory k
    Ending.value (.float (Float.ofNat used / 1024.0))
  | "step" => do
    let _ ← a.integerOr 2 0
    answered do
      let _ : Unit ← fun k => .collect (k ())
      Ending.value (.bool true)
  | "stop" => adjust (fun _ => .int 0) ({ · with runs := false })
  | "restart" => adjust (fun _ => .int 0) ({ · with runs := true })
  | "isrunning" => adjust (.bool ·.runs) id
  | "setpause" => do
    let n ← a.integerOr 2 0
    adjust (fun c => Value.ofNat c.pause) ({ · with pause := Collector.kept n })
  | "setstepmul" => do
    let n ← a.integerOr 2 0
    adjust (fun c => Value.ofNat c.speed) ({ · with speed := Collector.kept n })
  | "generational" => do
    let _ ← a.integerOr 2 0
    let _ ← a.integerOr 3 0
    adjust (fun c => .ofText c.mode) ({ · with byGenerations := true })
  | "incremental" => do
    let pause ← a.integerOr 2 0
    let speed ← a.integerOr 3 0
    let _ ← a.integerOr 4 0
    adjust (fun c => .ofText c.mode) fun c =>
      { c with
        byGenerations := false
        pause := if pause == 0 then c.pause else Collector.kept pause
        speed := if speed == 0 then c.speed else Collector.kept speed }
  | _ => answered do
    let _ : Unit ← fun k => .collect (k ())
    Ending.value (.int 0)

end NpcDialog.Lua.Base
