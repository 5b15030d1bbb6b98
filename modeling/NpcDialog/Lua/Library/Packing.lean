import NpcDialog.Lua.Library.Strings

/-!
# Packed values

The functions of strings that write values as bytes in a given layout and read
them back.

* `Packing.Layout` — the state of a layout while it is read.
* `Packing.Item` — one item of it.
* `Packing.pack`, `Packing.unpack`, `Packing.packSize` — the functions.
-/

namespace NpcDialog.Lua.Packing

open Bytes (ofText)

/-- The kinds of items. -/
inductive Kind where
  /-- An integer with sign. -/
  | signed
  /-- An integer without sign. -/
  | unsigned
  /-- A float of 32 bits. -/
  | single
  /-- A float of 64 bits. -/
  | double
  /-- A string of fixed size. -/
  | chars
  /-- A string behind its length. -/
  | counted
  /-- A string in front of a zero byte. -/
  | zeroEnded
  /-- A byte of padding. -/
  | padding
  /-- Padding up to the alignment of the next item. -/
  | alignment
  /-- Nothing. -/
  | nothing
  deriving DecidableEq

/-- What is known while a layout is read. -/
structure Layout where
  /-- The index of the next letter. -/
  index : Nat
  /-- Do low bytes come first? -/
  little : Bool
  /-- The greatest alignment. -/
  maxAlign : Nat

/-- One item: its kind, its size and the padding in front of it. -/
structure Item where
  /-- The kind. -/
  kind : Kind
  /-- The number of bytes. -/
  size : Nat
  /-- The number of bytes in front. -/
  pad : Nat

/-- The number at an index and the index behind it; the first argument bounds the
digits. -/
def numberAt (f : Bytes) : Nat → Nat → Option Nat → Option Nat × Nat
  | 0, i, n => (n, i)
  | k + 1, i, n =>
    let c := f.byteAt i
    if Bytes.isDigit c && n.getD 0 ≤ (0x7FFFFFFF - 9) / 10 then
      numberAt f k (i + 1) (some (n.getD 0 * 10 + (c - 48).toNat))
    else (n, i)

/-- The size at an index, or a default one, within the limits of integers. -/
def sizeAt (f : Bytes) (l : Layout) (other : Nat) : Proc (Nat × Layout) := do
  let (n, index) := numberAt f f.size l.index none
  let n := n.getD other
  if n < 1 || 16 < n then Proc.failWith s!"integral size ({n}) out of limits [1,16]"
  else return (n, { l with index })

/-- The kind and the size of the next letter. -/
def letter (f : Bytes) (l : Layout) : Proc (Kind × Nat × Layout) := do
  let c := f.byteAt l.index
  let l := { l with index := l.index + 1 }
  let withSize (kind : Kind) (other : Nat) : Proc (Kind × Nat × Layout) := do
    let (n, l) ← sizeAt f l other
    return (kind, n, l)
  match Char.ofNat c.toNat with
  | 'b' => return (.signed, 1, l)
  | 'B' => return (.unsigned, 1, l)
  | 'h' => return (.signed, 2, l)
  | 'H' => return (.unsigned, 2, l)
  | 'l' | 'j' => return (.signed, 8, l)
  | 'L' | 'J' | 'T' => return (.unsigned, 8, l)
  | 'f' => return (.single, 4, l)
  | 'n' | 'd' => return (.double, 8, l)
  | 'i' => withSize .signed 4
  | 'I' => withSize .unsigned 4
  | 's' => withSize .counted 8
  | 'c' => do
    let (n, index) := numberAt f f.size l.index none
    match n with
    | some n => return (.chars, n, { l with index })
    | none => Proc.failWith "missing size for format option 'c'"
  | 'z' => return (.zeroEnded, 0, l)
  | 'x' => return (.padding, 1, l)
  | 'X' => return (.alignment, 0, l)
  | ' ' => return (.nothing, 0, l)
  | '<' | '=' => return (.nothing, 0, { l with little := true })
  | '>' => return (.nothing, 0, { l with little := false })
  | '!' => do
    let (n, l) ← sizeAt f l 8
    return (.nothing, 0, { l with maxAlign := n })
  | _ => Proc.fail (.message 1 (ofText "invalid format option " ++ quoted (Bytes.single c)))

/-- The next item, where `total` bytes lie in front of it. -/
def item (f : Bytes) (l : Layout) (total : Nat) : Proc (Item × Layout) := do
  let (kind, size, l) ← letter f l
  let (align, nextKind, l) ←
    if kind == .alignment then do
      if f.size ≤ l.index then Args.refuse 1 "invalid next option for option 'X'"
      else
        let (k, n, l) ← letter f l
        if k == .chars || n == 0 then Args.refuse 1 "invalid next option for option 'X'"
        else pure (n, k, l)
    else pure (size, kind, l)
  let aligned := match nextKind with
    | .signed | .unsigned | .single | .double | .counted => true
    | .alignment => true
    | _ => kind == .alignment
  if align ≤ 1 || !aligned then return (⟨kind, size, 0⟩, l)
  else
    let align := min align l.maxAlign
    if align &&& (align - 1) != 0 then Args.refuse 1 "format asks for alignment not power of 2"
    else return (⟨kind, size, (align - total % align) % align⟩, l)

/-! ## Numbers -/

/-- The bytes of a number, low ones first. -/
def lowBytes : Nat → Nat → List UInt8
  | 0, _ => []
  | k + 1, n => (n % 256).toUInt8 :: lowBytes k (n / 256)

/-- The bytes of a number. -/
def numberBytes (little : Bool) (size n : Nat) : Bytes :=
  let bs := lowBytes size n
  Bytes.ofList (if little then bs else bs.reverse)

/-- The number that bytes are. -/
def bytesNumber (little : Bool) (b : Bytes) : Nat :=
  let bs := b.data.toList
  (if little then bs.reverse else bs).foldl (fun n c => n * 256 + c.toNat) 0

/-- The integer that bytes are. -/
def readInteger (l : Layout) (b : Bytes) (isSigned : Bool) : Proc Int64 := do
  let n := bytesNumber l.little b
  let negative := isSigned && 1 <<< (8 * b.size - 1) ≤ n
  let rest := n >>> 64
  let filled := 1 <<< (8 * (b.size - 8)) - 1
  if 8 < b.size && rest != 0 && !(negative && rest == filled) then
    Proc.failWith s!"{b.size}-byte integer does not fit into Lua Integer"
  else
    return Int64.ofInt (if negative then (n : Int) - (1 <<< (8 * b.size) : Nat) else n)

/-! ## The functions -/

/-- The bytes of items from the layout's index on, for the arguments from `n` on;
the first argument bounds the items. -/
def packFrom (a : Args) (f : Bytes) : Nat → Layout → Nat → Bytes → Proc Bytes
  | 0, _, _, acc => pure acc
  | k + 1, l, n, acc => do
    if f.size ≤ l.index then pure acc
    else
      let (it, l) ← item f l acc.size
      let acc := acc ++ Bytes.replicate it.pad 0
      let bits (x : Int64) : Nat := (x.toInt % (1 <<< (8 * it.size) : Nat)).toNat
      match it.kind with
      | .signed => do
        let x ← a.integer n
        let bound : Int := (1 <<< (8 * it.size - 1) : Nat)
        if it.size < 8 && (x.toInt < -bound || bound ≤ x.toInt) then Args.refuse n "integer overflow"
        else packFrom a f k l (n + 1) (acc ++ numberBytes l.little it.size (bits x))
      | .unsigned => do
        let x ← a.integer n
        if it.size < 8 && 1 <<< (8 * it.size) ≤ x.toUInt64.toNat then Args.refuse n "unsigned overflow"
        else packFrom a f k l (n + 1) (acc ++ numberBytes l.little it.size x.toUInt64.toNat)
      | .single => do
        let x ← a.float n
        packFrom a f k l (n + 1) (acc ++ numberBytes l.little 4 x.toFloat32.toBits.toNat)
      | .double => do
        let x ← a.float n
        packFrom a f k l (n + 1) (acc ++ numberBytes l.little 8 x.toBits.toNat)
      | .chars => do
        let s ← a.text n
        if it.size < s.size then Args.refuse n "string longer than given size"
        else packFrom a f k l (n + 1) (acc ++ s ++ Bytes.replicate (it.size - s.size) 0)
      | .counted => do
        let s ← a.text n
        if it.size < 8 && 1 <<< (8 * it.size) ≤ s.size then
          Args.refuse n "string length does not fit in given size"
        else packFrom a f k l (n + 1) (acc ++ numberBytes l.little it.size s.size ++ s)
      | .zeroEnded => do
        let s ← a.text n
        if (s.indexOf? 0 0).isSome then Args.refuse n "string contains zeros"
        else packFrom a f k l (n + 1) ((acc ++ s).push 0)
      | .padding => packFrom a f k l n (acc.push 0)
      | .alignment | .nothing => packFrom a f k l n acc

/-- The bytes of values. -/
def pack (a : Args) : Proc Ending := do
  let f := (← a.text 1).beforeZero
  Proc.returnString (← packFrom a f (f.size + 1) ⟨0, true, 1⟩ 2 ByteArray.empty)

/-- The bytes that items take; the first argument bounds the items. -/
def sizeFrom (f : Bytes) : Nat → Layout → Nat → Proc Nat
  | 0, _, total => pure total
  | k + 1, l, total => do
    if f.size ≤ l.index then pure total
    else
      let (it, l) ← item f l total
      if it.kind == .counted || it.kind == .zeroEnded then Args.refuse 1 "variable-length format"
      else if 0x7FFFFFFF < total + it.pad + it.size then Args.refuse 1 "format result too large"
      else sizeFrom f k l (total + it.pad + it.size)

/-- The bytes that values in a layout take. -/
def packSize (a : Args) : Proc Ending := do
  let f := (← a.text 1).beforeZero
  Ending.value (.ofNat (← sizeFrom f (f.size + 1) ⟨0, true, 1⟩ 0))

/-- The values of items from the layout's index on, at index `i` of the data; the
first argument bounds the items. -/
def unpackFrom (f data : Bytes) : Nat → Layout → Nat → Array Value → Proc (Array Value)
  | 0, _, i, acc => pure (acc.push (.ofNat (i + 1)))
  | k + 1, l, i, acc => do
    if f.size ≤ l.index then pure (acc.push (.ofNat (i + 1)))
    else
      let (it, l) ← item f l i
      if data.size - i < it.pad + it.size then Args.refuse 2 "data string too short"
      else
        let i := i + it.pad
        let part := data.slice i (i + it.size)
        let next := i + it.size
        match it.kind with
        | .signed => do unpackFrom f data k l next (acc.push (.int (← readInteger l part true)))
        | .unsigned => do unpackFrom f data k l next (acc.push (.int (← readInteger l part false)))
        | .single =>
          let x := (Float32.ofBits (bytesNumber l.little part).toUInt32).toFloat
          unpackFrom f data k l next (acc.push (.float x))
        | .double =>
          let x := Float.ofBits (bytesNumber l.little part).toUInt64
          unpackFrom f data k l next (acc.push (.float x))
        | .chars => unpackFrom f data k l next (acc.push (.str part))
        | .counted => do
          let n := (← readInteger l part false).toUInt64.toNat
          if data.size - next < n then Args.refuse 2 "data string too short"
          else unpackFrom f data k l (next + n) (acc.push (.str (data.slice next (next + n))))
        | .zeroEnded =>
          match data.indexOf? 0 i with
          | none => Args.refuse 2 "unfinished string for format 'z'"
          | some j => unpackFrom f data k l (j + 1) (acc.push (.str (data.slice i j)))
        | .padding | .alignment | .nothing => unpackFrom f data k l next acc

/-- The values of bytes. -/
def unpack (a : Args) : Proc Ending := do
  let f := (← a.text 1).beforeZero
  let data ← a.text 2
  let i := Strings.placeOf (← a.integerOr 3 1) data.size - 1
  if data.size < i then Args.refuse 3 "initial position out of string"
  else Ending.values (← unpackFrom f data (f.size + 1) ⟨0, true, 1⟩ i #[])

end NpcDialog.Lua.Packing
