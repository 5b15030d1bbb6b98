import NpcDialog.Lua.Value

/-!
# Tables

A table keeps the elements from one up in an array and everything else in a
vector of nodes, linked into chains.  How large the two parts are decides which
border the length operator finds in a table with holes, so the sizes follow
fixed rules: when a new key finds no free node, the keys are counted, the array
gets the largest power of two that is more than half full, and the rest goes to
the nodes.

* `Table` — a table, with `Table.get` and `Table.setNormal`.
* `Table.rehash` — the new sizes.
* `Table.length` — a border.
* `Table.next?` — the traversal of all fields.
* `Table.withoutValues`, `Table.withoutKeys` — the table without what is gone.
-/

namespace NpcDialog.Lua

/-- A field outside the array.  A node without a key is free; one without a
value is left over from a field that was cleared. -/
structure Node where
  /-- The key, absent in a free node. -/
  key : Value
  /-- The value. -/
  value : Value
  /-- One more than the index of the next node of the chain, zero at its end. -/
  next : Nat

instance : Inhabited Node := ⟨⟨.nil, .nil, 0⟩⟩

/-- A table. -/
structure Table where
  /-- The elements from one up. -/
  array : Array Value
  /-- Where the length was found last; never beyond the array. -/
  hint : Nat
  /-- The other fields; their number is zero or a power of two. -/
  nodes : Array Node
  /-- Nodes from here on are not free. -/
  lastFree : Nat
  /-- The metatable. -/
  metatable : Option Nat

instance : Inhabited Table := ⟨⟨#[], 0, #[], 0, none⟩⟩

namespace Table

/-- A table without fields. -/
def empty : Table := ⟨#[], 0, #[], 0, none⟩

/-! ## Places of keys -/

/-- The hash of a byte string, from its length and its first bytes. -/
def hashBytes (b : Bytes) : UInt64 :=
  let rec go (i : Nat) (h : UInt64) : Nat → UInt64
    | 0 => h
    | n + 1 =>
      go (i + 1) (h ^^^ ((h <<< 5) + (h >>> 2) + (b.byteAt i).toUInt64)) n
  go 0 (b.size.toUInt64 ^^^ 0x5A3C) (min b.size 32)

/-- The hash of a key in a vector of `size` nodes. -/
def slotOf (size : Nat) (key : Value) : Nat :=
  let odd := (size - 1) ||| 1
  match key with
  | .int n => n.toUInt64.toNat % odd
  | .str s => (hashBytes s).toNat % size
  | .bool b => (if b then 1 else 0) % size
  | .float x => x.toBits.toNat % odd
  | .table i => i % odd
  | .closure i => (i + 1) % odd
  | .bound i => (i + 2) % odd
  | .thread i => (i + 3) % odd
  | .file i => (i + 4) % odd
  | .builtin b => b.ctorIdx % odd
  | .handle h => (h.ctorIdx + 5) % odd
  | .nil => 0

/-- Are two keys the same?  Keys are normalised, so integers and floats never
are. -/
def sameKey : Value → Value → Bool
  | .int m, .int n => m == n
  | .str s, .str t => s == t
  | .nil, .nil => true
  | .int _, _ => false
  | .str _, _ => false
  | _, .int _ => false
  | _, .str _ => false
  | a, b => Value.same a b

/-- The node of a key in the chain that begins at `i`; the first argument bounds
the chain. -/
def findInChain (nodes : Array Node) (key : Value) : Nat → Nat → Option Nat
  | 0, _ => none
  | n + 1, i =>
    match nodes[i]? with
    | some node =>
      if sameKey node.key key then some i
      else if node.next == 0 then none
      else findInChain nodes key n (node.next - 1)
    | none => none

/-- The node of a key. -/
def findNode (t : Table) (key : Value) : Option Nat :=
  if t.nodes.size == 0 then none
  else findInChain t.nodes key t.nodes.size (slotOf t.nodes.size key)

/-! ## Reading -/

/-- A key in its normal form: a float with an integral value is that integer. -/
@[inline] def normalKey : Value → Value
  | .float x =>
    match Binary64.toInt64? x .exact with
    | some n => .int n
    | none => .float x
  | v => v

/-- The value of a key among the nodes. -/
def nodeValue (t : Table) (key : Value) : Value :=
  match t.findNode key with
  | some i => (t.nodes[i]?).elim .nil Node.value
  | none => .nil

/-- The element at an integer. -/
@[inline] def getInt (t : Table) (n : Int64) : Value :=
  let i := n.toUInt64.toNat
  if h : i - 1 < t.array.size ∧ 0 < i then t.array[i - 1]
  else t.nodeValue (.int n)

/-- The field of a name. -/
@[inline] def getStr (t : Table) (s : Bytes) : Value := t.nodeValue (.str s)

/-- The field of a key. -/
def get (t : Table) (key : Value) : Value :=
  match key with
  | .int n => t.getInt n
  | .str s => t.getStr s
  | .nil => .nil
  | .float x =>
    match Binary64.toInt64? x .exact with
    | some n => t.getInt n
    | none => t.nodeValue key
  | _ => t.nodeValue key

/-! ## Sizes -/

/-- The least `e` with `n ≤ 2 ^ e`. -/
def ceilLog2 (n : Nat) : Nat := if n ≤ 1 then 0 else (n - 1).log2 + 1

/-- How many keys lie between two neighbouring powers of two, by the exponent
of the upper one. -/
abbrev KeyCounts := Array Nat

/-- Counts the elements of an array that are present. -/
def countArray (array : Array Value) : KeyCounts × Nat :=
  let rec go (i : Nat) (counts : KeyCounts) (total : Nat) : List Value → KeyCounts × Nat
    | [] => (counts, total)
    | v :: rest =>
      if v.isNil then go (i + 1) counts total rest
      else go (i + 1) (counts.modify (ceilLog2 (i + 1)) (· + 1)) (total + 1) rest
  go 0 (Array.replicate 64 0) 0 array.toList

/-- Counts a key if it could be an element of an array. -/
def countKey (counts : KeyCounts) (key : Value) : KeyCounts × Nat :=
  match key with
  | .int n =>
    if 1 ≤ n && n ≤ 0x7FFFFFFF then (counts.modify (ceilLog2 n.toInt.toNat) (· + 1), 1)
    else (counts, 0)
  | _ => (counts, 0)

/-- The array size for keys that are counted: the largest power of two more than
half of whose elements are present, and how many those are. -/
def bestSize (counts : KeyCounts) (candidates : Nat) : Nat × Nat :=
  let rec go (i below size kept : Nat) : Nat → Nat × Nat
    | 0 => (size, kept)
    | n + 1 =>
      let power := 1 <<< i
      if candidates ≤ power / 2 then (size, kept)
      else
        let below := below + counts.getD i 0
        if power / 2 < below then go (i + 1) below power below n
        else go (i + 1) below size kept n
  go 0 0 0 0 64

/-! ## Writing -/

/-- The greatest free node below `lastFree`, among `n` nodes. -/
def freeNode (nodes : Array Node) : Nat → Option Nat
  | 0 => none
  | n + 1 =>
    match nodes[n]? with
    | some node => if node.key.isNil then some n else freeNode nodes n
    | none => freeNode nodes n

/-- The node in front of node `target` in the chain that begins at `i`; the
first argument bounds the chain. -/
def beforeInChain (nodes : Array Node) (target : Nat) : Nat → Nat → Nat
  | 0, i => i
  | n + 1, i =>
    match nodes[i]? with
    | some node => if node.next == target + 1 then i else beforeInChain nodes target n (node.next - 1)
    | none => i

/-- A new field for a key that is not there yet, if a node can be had for it.
A node that sits in another chain's place is moved out of the way. -/
def insertNode (t : Table) (key value : Value) : Option Table :=
  let size := t.nodes.size
  if size == 0 then none
  else
    let home := slotOf size key
    let occupant := t.nodes.getD home ⟨.nil, .nil, 0⟩
    if occupant.value.isNil then
      some { t with nodes := t.nodes.modify home fun n => { n with key, value } }
    else
      match freeNode t.nodes t.lastFree with
      | none => none
      | some free =>
        let owner := slotOf size occupant.key
        if owner != home then
          let before := beforeInChain t.nodes home size owner
          let nodes := t.nodes.modify before fun n => { n with next := free + 1 }
          let nodes := nodes.setIfInBounds free occupant
          some { t with nodes := nodes.setIfInBounds home ⟨key, value, 0⟩, lastFree := free }
        else
          let nodes := t.nodes.setIfInBounds free ⟨key, value, occupant.next⟩
          some { t with nodes := nodes.modify home fun n => { n with next := free + 1 }, lastFree := free }

/-- A new field, where a table without a free node drops it. -/
def insertOrDrop (t : Table) (key value : Value) : Table := (t.insertNode key value).getD t

/-- Writes a field that has an element or a node, or gets a free node. -/
def place (t : Table) (key value : Value) : Table :=
  match key with
  | .int n =>
    let i := n.toUInt64.toNat
    if 0 < i && i ≤ t.array.size then { t with array := t.array.setIfInBounds (i - 1) value }
    else t.insertOrDrop key value
  | _ => t.insertOrDrop key value

/-- The table with new sizes and the same fields. -/
def resize (t : Table) (arraySize nodeCount : Nat) : Table :=
  let size := if nodeCount == 0 then 0 else 1 <<< ceilLog2 nodeCount
  let kept := t.array.extract 0 arraySize
  let kept := kept ++ Array.replicate (arraySize - kept.size) Value.nil
  let fresh : Table := ⟨kept, arraySize, Array.replicate size ⟨.nil, .nil, 0⟩, size, t.metatable⟩
  let moved := (t.array.extract arraySize t.array.size).foldl
    (fun (acc : Table × Nat) v =>
      (if v.isNil then acc.1 else acc.1.place (.int (Int64.ofNat acc.2)) v, acc.2 + 1))
    (fresh, arraySize + 1)
  t.nodes.foldl (fun acc n => if n.value.isNil then acc else acc.place n.key n.value) moved.1

/-- The table with sizes that suit its fields and one more key. -/
def rehash (t : Table) (key : Value) : Table :=
  let (counts, inArray) := countArray t.array
  let (counts, candidates, total) := t.nodes.foldl
    (fun (acc : KeyCounts × Nat × Nat) n =>
      if n.value.isNil then acc
      else
        let (counts, one) := countKey acc.1 n.key
        (counts, acc.2.1 + one, acc.2.2 + 1))
    (counts, inArray, inArray)
  let (counts, one) := countKey counts key
  let (size, kept) := bestSize counts (candidates + one)
  t.resize size (total + 1 - kept)

/-- Writes a field whose key is in normal form and not the value of absence. -/
def setNormal (t : Table) (key value : Value) : Table :=
  let viaNodes (t : Table) : Table :=
    match t.findNode key with
    | some i => { t with nodes := t.nodes.modify i fun n => { n with value } }
    | none =>
      if value.isNil then t
      else
        match t.insertNode key value with
        | some t => t
        | none => (t.rehash key).place key value
  match key with
  | .int n =>
    let i := n.toUInt64.toNat
    if i - 1 < t.array.size ∧ 0 < i then
      { t with
        array := t.array.setIfInBounds (i - 1) value
        hint := if t.hint < i then i else t.hint }
    else viaNodes t
  | _ => viaNodes t

/-- Why a value is no key. -/
inductive KeyFault where
  /-- It is the value of absence. -/
  | nil
  /-- It is no number, though a float. -/
  | notNumber
  deriving DecidableEq

/-- The key that a value is as a new field. -/
def checkKey (key : Value) : Except KeyFault Value :=
  match key with
  | .nil => .error .nil
  | .float x => if x != x then .error .notNumber else .ok (normalKey key)
  | v => .ok v

/-- Writes an element. -/
@[inline] def setInt (t : Table) (n : Int64) (value : Value) : Table := t.setNormal (.int n) value

/-- The table with room for elements and fields, before any of them is there. -/
def withRoom (elements fields : Nat) : Table := empty.resize elements fields

/-! ## Length -/

/-- Is an element of the array absent?  Elements are counted from zero. -/
@[inline] def absentAt (t : Table) (i : Nat) : Bool := (t.array.getD i .nil).isNil

/-- A border between `i`, where an element is present, and `j`, where one is
absent; the first argument bounds the steps. -/
def searchArray (t : Table) : Nat → Nat → Nat → Nat
  | 0, i, _ => i
  | n + 1, i, j =>
    if j - i ≤ 1 then i
    else
      let m := (i + j) / 2
      if t.absentAt (m - 1) then searchArray t n i m else searchArray t n m j

/-- A border among the nodes between `i`, which is present, and `j`, which is
absent; the first argument bounds the steps. -/
def searchNodes (t : Table) : Nat → Nat → Nat → Nat
  | 0, i, _ => i
  | n + 1, i, j =>
    if j - i ≤ 1 then i
    else
      let m := (i + j) / 2
      if (t.getInt (Int64.ofNat m)).isNil then searchNodes t n i m else searchNodes t n m j

/-- An absent integer found by doubling from `j`, with the last present one;
the first argument bounds the steps. -/
def probeNodes (t : Table) : Nat → Nat → Nat → Nat
  | 0, i, _ => i
  | n + 1, _, j =>
    if j ≤ 0x7FFFFFFFFFFFFFFF / 2 then
      if (t.getInt (Int64.ofNat (j * 2))).isNil then searchNodes t 64 j (j * 2)
      else probeNodes t n j (j * 2)
    else if (t.getInt Int64.maxValue).isNil then searchNodes t 64 j 0x7FFFFFFFFFFFFFFF
    else 0x7FFFFFFFFFFFFFFF

/-- Is the number a power of two, or zero? -/
def isPowerOfTwo (n : Nat) : Bool := n &&& (n - 1) == 0

/-- A border beyond the array. -/
def lengthBeyond (t : Table) (limit : Nat) : Nat :=
  if t.nodes.size == 0 || (t.getInt (Int64.ofNat (limit + 1))).isNil then limit
  else probeNodes t 64 (max limit 1) (max limit 1)

/-- A border of the table, and where to look for it next time. -/
def border (t : Table) : Nat × Nat :=
  let limit := t.hint
  let size := t.array.size
  let remember (n : Nat) : Nat := if isPowerOfTwo size && size / 2 < n then n else limit
  if 0 < limit && t.absentAt (limit - 1) then
    if 2 ≤ limit && !t.absentAt (limit - 2) then (limit - 1, remember (limit - 1))
    else
      let b := searchArray t 64 0 limit
      (b, remember b)
  else if limit != size then
    if t.absentAt limit then (limit, limit)
    else if t.absentAt (size - 1) then
      let b := searchArray t 64 limit size
      (b, b)
    else (t.lengthBeyond size, limit)
  else (t.lengthBeyond limit, limit)

/-- A border of the table: zero, or a present element whose successor is
absent. -/
def length (t : Table) : Nat := t.border.1

/-! ## Traversal -/

/-- The first field that is present at position `i` or later, where the array
comes before the nodes; `n` positions are tried. -/
def firstFrom (t : Table) : Nat → Nat → Option (Value × Value)
  | 0, _ => none
  | n + 1, i =>
    if h : i < t.array.size then
      let v := t.array[i]
      if v.isNil then firstFrom t n (i + 1) else some (Value.ofNat (i + 1), v)
    else
      match t.nodes[i - t.array.size]? with
      | some node => if node.value.isNil then firstFrom t n (i + 1) else some (node.key, node.value)
      | none => none

/-- The position behind a key, if the table has or had it. -/
def positionAfter? (t : Table) (key : Value) : Option Nat :=
  match normalKey key with
  | .nil => some 0
  | .int n =>
    let i := n.toUInt64.toNat
    if 0 < i && i ≤ t.array.size then some i
    else (t.findNode (.int n)).map fun k => t.array.size + k + 1
  | k => (t.findNode k).map fun i => t.array.size + i + 1

/-- The field behind a key in the traversal; the inner answer is absent at the
end, the outer one if the key is unknown. -/
def next? (t : Table) (key : Value) : Option (Option (Value × Value)) :=
  (t.positionAfter? key).map fun i => t.firstFrom (t.array.size + t.nodes.size + 1 - i) i

/-! ## Weak references -/

/-- The table without the fields whose values are gone. -/
def withoutValues (t : Table) (gone : Value → Bool) : Table :=
  { t with
    array := t.array.map fun v => if gone v then .nil else v
    nodes := t.nodes.map fun n => if gone n.value then { n with value := .nil } else n }

/-- The table without the fields whose keys are gone. -/
def withoutKeys (t : Table) (gone : Value → Bool) : Table :=
  { t with nodes := t.nodes.map fun n => if gone n.key then { n with value := .nil } else n }

end Table

end NpcDialog.Lua
