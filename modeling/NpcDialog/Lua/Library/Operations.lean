import NpcDialog.Lua.Library.Arguments

/-!
# Operations on values

What built-in functions do with values whose metatables have a say.

* `Proc.index`, `Proc.assign` — fields.
* `Proc.length` — lengths.
* `Proc.isLess`, `Proc.isEqual` — comparisons.
* `Proc.show` — the text of any value.
-/

namespace NpcDialog.Lua

open Bytes (ofText)

/-- The address that the text of a value without a text of its own shows. -/
def addressText (kind : Nat) (id : Nat) : Bytes :=
  let digits := Bytes.hexDigits (0x550000000000 + kind * 0x1000000 + id * 0x40)
  ofText "0x" ++ Bytes.replicate (14 - digits.size) 48 ++ digits

/-- The address of a value. -/
def Value.address : Value → Bytes
  | .table id => addressText 1 id
  | .closure id => addressText 2 id
  | .bound id => addressText 3 id
  | .builtin b => addressText 4 b.ctorIdx
  | .thread id => addressText 5 id
  | .file id => addressText 6 id
  | .handle h => addressText 7 h.ctorIdx
  | _ => ByteArray.empty

namespace Proc

/-- A fault with a message that has no place. -/
def failPlain {α : Type} (text : Bytes) : Proc α := fail (.message 0 text)

/-- Reads a field. -/
def index (v key : Value) : Proc Value := do
  match ← read fun h => h.lookup v key with
  | .value found => return found
  | .handled f o => callOne f #[o, key]
  | .notIndexable o _ => do
    let name ← read fun h => h.typeName o
    failPlain (ofText "attempt to index a " ++ name ++ ofText " value")
  | .tooLong => failPlain (ofText "'__index' chain too long; possibly a loop")

/-- Writes a field of a table, whatever its metatable says. -/
def rawSet (id : Nat) (key value : Value) : Proc Unit :=
  match Table.checkKey key with
  | .ok key => update fun h => h.rawSetNormal id key value
  | .error why => failPlain why.text

/-- Writes a field. -/
def assign (v key value : Value) : Proc Unit := do
  match ← read fun h => h.assignment v key with
  | .raw id => rawSet id key value
  | .handled f o => discard (call f #[o, key, value])
  | .notIndexable o _ => do
    let name ← read fun h => h.typeName o
    failPlain (ofText "attempt to index a " ++ name ++ ofText " value")
  | .tooLong => failPlain (ofText "'__newindex' chain too long; possibly a loop")

/-- Reads an element. -/
def element (v : Value) (i : Int64) : Proc Value := index v (.int i)

/-- Writes an element. -/
def setElement (v : Value) (i : Int64) (x : Value) : Proc Unit := assign v (.int i) x

/-- A metamethod of a value. -/
def metamethod (v : Value) (event : String) : Proc Value := read fun h => h.metamethod v event

/-- The length of a value, as an integer. -/
def length (v : Value) : Proc Int64 := do
  let handler ← metamethod v "__len"
  match v with
  | .str s => return Int64.ofNat s.size
  | _ =>
    if handler.isNil then
      match v with
      | .table id => return Int64.ofNat (← alter fun h => h.border id)
      | _ => do
        let name ← read fun h => h.typeName v
        failPlain (ofText "attempt to get length of a " ++ name ++ ofText " value")
    else
      match (← callOne handler #[v, v]).toInteger? with
      | some n => return n
      | none => failWith "object length is not an integer"

/-- Is one value smaller than another? -/
def isLess (a b : Value) : Proc Bool := do
  match Heap.compareOrder false a b with
  | some r => return r
  | none => do
    let handler ← read fun h => h.binaryHandler a b "__lt"
    if handler.isNil then failPlain (← read fun h => h.orderMessage a b)
    else return (← callOne handler #[a, b]).isTrue

/-- The text of any value. -/
def «show» (v : Value) : Proc Bytes := do
  let handler ← metamethod v "__tostring"
  if !handler.isNil then
    match Args.textOf? (← callOne handler #[v]) with
    | some s => return s
    | none => failWith "'__tostring' must return a string"
  else
    match v with
    | .nil => return ofText "nil"
    | .bool b => return ofText (if b then "true" else "false")
    | .str s => return s
    | .int n => return Number.toText (.int n)
    | .float x => return Number.toText (.float x)
    | v => do
      let name ← metamethod v "__name"
      let kind := match name with
        | .str s => s
        | _ => ofText v.typeName
      return kind ++ ofText ": " ++ v.address

/-- A string as a new value. -/
def string (s : Bytes) : Proc Value := fun k =>
  .heap (fun h => (Value.str s, h.charge (Heap.stringCost s))) k

/-- Ends with a string. -/
def returnString (s : Bytes) : Proc Ending := do return .results #[← string s]

end Proc

end NpcDialog.Lua
