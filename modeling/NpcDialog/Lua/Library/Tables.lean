import NpcDialog.Lua.Library.Operations

/-!
# Functions on tables

The functions of the table `table`.  They read and write elements with
metamethods honoured, so anything with the right metamethods will do for a
table.

* `Tables.insert`, `Tables.remove`, `Tables.move` — elements change places.
* `Tables.concat`, `Tables.pack`, `Tables.unpack` — tables and lists of values.
* `Tables.sort` — sorting.
-/

namespace NpcDialog.Lua.Tables

open Bytes (ofText)

/-- An argument that is a table or has the metamethods that make up for it. -/
def tableLike (a : Args) (n : Nat) (events : List String) : Proc Value := do
  match a.get n with
  | .table id => return .table id
  | v => do
    let able ← Proc.read fun h => events.all fun e => !(h.metamethod v e).isNil
    if able then return v else a.mismatch n "table"

/-- The table of an argument and its length. -/
def sized (a : Args) (events : List String) : Proc (Value × Int64) := do
  let t ← tableLike a 1 (events ++ ["__len"])
  return (t, ← Proc.length t)

/-- Moves elements up by one place, the highest first: those from `i - 1` down,
`n` of them. -/
def shiftUp (t : Value) : Nat → Int64 → Proc Unit
  | 0, _ => pure ()
  | n + 1, i => do
    Proc.setElement t i (← Proc.element t (i - 1))
    shiftUp t n (i - 1)

/-- Inserts an element. -/
def insert (a : Args) : Proc Ending := do
  let (t, size) ← sized a ["__index", "__newindex"]
  let e := size + 1
  match a.size with
  | 2 => do
    Proc.setElement t e (a.get 2)
    Ending.values #[]
  | 3 => do
    let pos ← a.integer 2
    if e.toUInt64 ≤ pos.toUInt64 - 1 then Args.refuse 2 "position out of bounds"
    else
      shiftUp t (e.toInt - pos.toInt).toNat e
      Proc.setElement t pos (a.get 3)
      Ending.values #[]
  | _ => Proc.failWith "wrong number of arguments to 'insert'"

/-- Moves `n` elements down by one place, to places from `i` on. -/
def shiftDown (t : Value) : Nat → Int64 → Proc Unit
  | 0, _ => pure ()
  | n + 1, i => do
    Proc.setElement t i (← Proc.element t (i + 1))
    shiftDown t n (i + 1)

/-- Removes an element. -/
def remove (a : Args) : Proc Ending := do
  let (t, size) ← sized a ["__index", "__newindex"]
  let pos ← a.integerOr 2 size
  if pos != size && size.toUInt64 < (pos - 1).toUInt64 then
    Args.refuse 2 "position out of bounds"
  else
    let v ← Proc.element t pos
    let n := (size.toInt - pos.toInt).toNat
    shiftDown t n pos
    let last := pos + Int64.ofNat n
    Proc.setElement t last .nil
    Ending.value v

/-- Copies `n` elements from `f` on to places from `t` on, in steps of `d`. -/
def copyElements (source target : Value) (d : Int64) : Nat → Int64 → Int64 → Proc Unit
  | 0, _, _ => pure ()
  | n + 1, f, t => do
    Proc.setElement target t (← Proc.element source f)
    copyElements source target d n (f + d) (t + d)

/-- Moves elements within a table or to another one. -/
def move (a : Args) : Proc Ending := do
  let f ← a.integer 2
  let e ← a.integer 3
  let t ← a.integer 4
  let other := if a.isAbsent 5 then 1 else 5
  let source ← tableLike a 1 ["__index"]
  let target ← tableLike a other ["__newindex"]
  if f ≤ e then
    if !(0 < f || e < Int64.maxValue + f) then Args.refuse 3 "too many elements to move"
    else
      let n := e - f + 1
      if t.toInt ≤ Int64.maxValue.toInt - n.toInt + 1 then
        let same := Value.same source target
        if e < t || t ≤ f || (other != 1 && !same) then
          copyElements source target 1 n.toInt.toNat f t
        else copyElements source target (-1) n.toInt.toNat (f + n - 1) (t + n - 1)
        Ending.value target
      else Args.refuse 4 "destination wrap around"
  else Ending.value target

/-- The texts of elements from `i` on, `n` of them, with a separator in
between. -/
def joinElements (t : Value) (sep : Bytes) : Nat → Int64 → Bytes → Proc Bytes
  | 0, _, acc => pure acc
  | n + 1, i, acc => do
    let v ← Proc.element t i
    match Args.textOf? v with
    | some s => joinElements t sep n (i + 1) (if n == 0 then acc ++ s else acc ++ s ++ sep)
    | none => do
      Proc.failWith s!"invalid value ({v.typeName}) at index {i.toInt} in table for 'concat'"

/-- The texts of elements joined. -/
def concat (a : Args) : Proc Ending := do
  let (t, size) ← sized a ["__index"]
  let sep ← a.textOr 2 ByteArray.empty
  let i ← a.integerOr 3 1
  let last ← a.integerOr 4 size
  let n := (last.toInt - i.toInt + 1).toNat
  Proc.returnString (← joinElements t sep n i ByteArray.empty)

/-- A table of the arguments. -/
def pack (a : Args) : Proc Ending := do
  let id ← Proc.alter fun h =>
    let n := a.size
    let (id, h) := h.newTable (Table.withRoom n 1)
    let (h, _) := a.values.foldl (fun (acc : Heap × Nat) v =>
      (acc.1.rawSetNormal id (.ofNat acc.2) v, acc.2 + 1)) (h, 1)
    (id, h.rawSetStr id (ofText "n") (.ofNat n))
  Ending.value (.table id)

/-- The values of `n` elements from `i` on. -/
def elementsFrom (t : Value) : Nat → Int64 → Array Value → Proc (Array Value)
  | 0, _, acc => pure acc
  | n + 1, i, acc => do elementsFrom t n (i + 1) (acc.push (← Proc.element t i))

/-- The elements of a table. -/
def unpack (a : Args) : Proc Ending := do
  let t := a.get 1
  let i ← a.integerOr 2 1
  let e ← if a.isAbsent 3 then Proc.length t else a.integer 3
  if e < i then Ending.values #[]
  else
    let n := e.toInt - i.toInt + 1
    if 1000000 ≤ n then Proc.failWith "too many results to unpack"
    else Ending.values (← elementsFrom t n.toNat i #[])

/-! ## Sorting -/

/-- Does one value come before another? -/
def comesBefore (order : Value) (x y : Value) : Proc Bool :=
  if order.isNil then Proc.isLess x y else do return (← Proc.callOne order #[x, y]).isTrue

/-- Stores two elements. -/
def setPair (t : Value) (i j : Int64) (x y : Value) : Proc Unit := do
  Proc.setElement t i x
  Proc.setElement t j y

/-- The message about an order that contradicts itself. -/
def badOrder {α : Type} : Proc α := Proc.failWith "invalid order function for sorting"

/-- Looks upwards from place `i` for an element that does not come before the
pivot; the first argument bounds the places. -/
def scanUp (t order pivot : Value) (up : Int64) : Nat → Int64 → Proc (Int64 × Value)
  | 0, _ => badOrder
  | n + 1, i => do
    let i := i + 1
    let v ← Proc.element t i
    if ← comesBefore order v pivot then
      if i == up - 1 then badOrder else scanUp t order pivot up n i
    else return (i, v)

/-- Looks downwards from place `j` for an element that the pivot does not come
before; the first argument bounds the places. -/
def scanDown (t order pivot : Value) (i : Int64) : Nat → Int64 → Proc (Int64 × Value)
  | 0, _ => badOrder
  | n + 1, j => do
    let j := j - 1
    let v ← Proc.element t j
    if ← comesBefore order pivot v then
      if j < i then badOrder else scanDown t order pivot i n j
    else return (j, v)

/-- Puts smaller elements in front of the pivot, which is at place `up - 1`, and
greater ones behind it; the answer is where the pivot ends up.  The first
argument bounds the exchanges. -/
def partition (t order pivot : Value) (up : Int64) : Nat → Int64 → Int64 → Proc Int64
  | 0, _, _ => badOrder
  | n + 1, i, j => do
    let room := (up.toInt + 2).toNat
    let (i, x) ← scanUp t order pivot up room i
    let (j, y) ← scanDown t order pivot i room j
    if j < i then do
      setPair t (up - 1) i x pivot
      return i
    else do
      setPair t i j y x
      partition t order pivot up n i j

/-- Sorts the elements from `lo` to `up`.  The first argument bounds the
parts. -/
def sortRange (t order : Value) : Nat → Int64 → Int64 → Proc Unit
  | 0, _, _ => pure ()
  | n + 1, lo, up => do
    if up ≤ lo then pure ()
    else
      let x ← Proc.element t lo
      let y ← Proc.element t up
      if ← comesBefore order y x then setPair t lo up y x
      if up - lo == 1 then pure ()
      else
        let p := Int64.ofInt ((lo.toInt + up.toInt) / 2)
        let v ← Proc.element t p
        let first ← Proc.element t lo
        if ← comesBefore order v first then setPair t p lo first v
        else
          let last ← Proc.element t up
          if ← comesBefore order last v then setPair t p up last v
        if up - lo == 2 then pure ()
        else
          let pivot ← Proc.element t p
          let other ← Proc.element t (up - 1)
          setPair t p (up - 1) other pivot
          let p ← partition t order pivot up (up.toInt - lo.toInt).toNat lo (up - 1)
          if p - lo < up - p then do
            sortRange t order n lo (p - 1)
            sortRange t order n (p + 1) up
          else do
            sortRange t order n (p + 1) up
            sortRange t order n lo (p - 1)

/-- Sorts the elements of a table. -/
def sort (a : Args) : Proc Ending := do
  let (t, size) ← sized a ["__index", "__newindex"]
  if 1 < size then
    if 0x7FFFFFFF ≤ size then Args.refuse 1 "array too big"
    else
      let order ← if a.isAbsent 2 then pure Value.nil else a.function 2
      sortRange t order size.toInt.toNat 1 size
      Ending.values #[]
  else Ending.values #[]

end NpcDialog.Lua.Tables
