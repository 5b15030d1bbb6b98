import NpcDialog.Lua.Code

/-!
# Archives

A chunk as a byte string, and back.  An archive begins with a signature that no
text begins with and a head that tells the format; behind it stand numbers of
variable length, seven bits in a byte, the low ones first.

* `FunctionCode.archive` — the bytes of a chunk.
* `Archive.read` — the chunk of an archive, or what is wrong with it.
-/

namespace NpcDialog.Lua

open Bytes (ofText)

namespace Archive

/-- The byte with which every archive begins. -/
def firstByte : UInt8 := 27

/-- The signature behind the first byte. -/
def signature : Bytes := ofText "Lua"

/-- What tells archives of this format apart, and what is wrong with one that
lacks it. -/
def head : List (Bytes × String) :=
  [(signature, "not a binary chunk"), (Bytes.single 0x54, "version mismatch"),
    (Bytes.single 0, "format mismatch"), (Bytes.ofList [0x19, 0x93, 13, 10, 0x1A, 10], "corrupted chunk"),
    (Bytes.single 4, "Instruction size mismatch"), (Bytes.single 8, "lua_Integer size mismatch"),
    (Bytes.single 8, "lua_Number size mismatch"),
    (Bytes.ofList [0x78, 0x56, 0, 0, 0, 0, 0, 0], "integer format mismatch"),
    (Bytes.ofList [0, 0, 0, 0, 0, 0x28, 0x77, 0x40], "float format mismatch")]

/-! ## Numbers -/

/-- The natural number that stands for an integer. -/
def ofInt (i : Int) : Nat := if i < 0 then 2 * i.natAbs - 1 else 2 * i.natAbs

/-- The integer that a natural number stands for. -/
def toInt (n : Nat) : Int := if n % 2 == 0 then (n / 2 : Nat) else -((n / 2 + 1 : Nat) : Int)

/-- How many bytes a number takes. -/
def numberSize (n : Nat) : Nat := n.log2 / 7 + 1

/-- The bytes of a number; the first argument is how many they are. -/
def numberBytes : Nat → Nat → Bytes → Bytes
  | 0, _, acc => acc
  | k + 1, n, acc =>
    if n < 128 then acc.push n.toUInt8
    else numberBytes k (n / 128) (acc.push (128 + n % 128).toUInt8)

/-- The numbers that stand in bytes. -/
def numbersOf (bytes : List UInt8) : Option (List Nat) :=
  let rec go (value place : Nat) : List UInt8 → List Nat → Option (List Nat)
    | [], acc => if place == 1 then some acc.reverse else none
    | b :: rest, acc =>
      if b < 128 then go 0 1 rest ((value + place * b.toNat) :: acc)
      else go (value + place * (b.toNat - 128)) (place * 128) rest acc
  go 0 1 bytes []

/-! ## Writing -/

/-- The numbers of a byte string. -/
def ofBytes (b : Bytes) : List Nat := b.size :: b.data.toList.map UInt8.toNat

/-- The numbers of a truth value. -/
def ofBool (b : Bool) : Nat := if b then 1 else 0

/-- The number of a number that may be absent. -/
def ofCount : Option Nat → Nat
  | none => 0
  | some n => n + 1

/-- The numbers of a list, behind its length. -/
def ofItems {α : Type} (f : α → List Nat) (xs : Array α) : List Nat :=
  xs.size :: xs.toList.flatMap f

/-- The numbers of a constant. -/
def ofConst : Const → List Nat
  | .nil => [0]
  | .bool b => [1, ofBool b]
  | .int n => [2, n.toUInt64.toNat]
  | .float bits => [3, bits.toNat]
  | .str s => 4 :: ofBytes s

/-- The numbers of an operand. -/
def ofSource : Source → List Nat
  | .reg r => [0, r]
  | .const k => [1, k]
  | .small i f => [if f then 3 else 2, ofInt i]

/-- The operators in the order of their numbers. -/
def operators : List Operator :=
  [.add, .sub, .mul, .mod, .pow, .div, .idiv, .band, .bor, .bxor, .shl, .shr]

/-- The comparisons in the order of their numbers. -/
def comparisons : List Comparison := [.eq, .lt, .le, .gt, .ge]

/-- The numbers of an instruction. -/
def ofInstr : Instr → List Nat
  | .move a b => [0, a, b]
  | .loadInt a i => [1, a, ofInt i]
  | .loadFloat a i => [2, a, ofInt i]
  | .loadConst a k => [3, a, k]
  | .loadFalse a => [4, a]
  | .loadFalseSkip a => [5, a]
  | .loadTrue a => [6, a]
  | .loadNil a last => [7, a, last]
  | .getCaptured a u => [8, a, u]
  | .setCaptured a u => [9, a, u]
  | .getCapturedField a u k => [10, a, u, k]
  | .getIndex a b c => [11, a, b, c]
  | .getInt a b i => [12, a, b, i]
  | .getField a b k => [13, a, b, k]
  | .setCapturedField u k v => 14 :: u :: k :: ofSource v
  | .setIndex a b v => 15 :: a :: b :: ofSource v
  | .setInt a i v => 16 :: a :: i :: ofSource v
  | .setField a k v => 17 :: a :: k :: ofSource v
  | .newTable a f e => [18, a, f, e]
  | .self a b key => 19 :: a :: b :: ofSource key
  | .arith op a b c flipped =>
    20 :: (operators.idxOf op) :: a :: b :: ofBool flipped :: ofSource c
  | .negate a b => [21, a, b]
  | .complement a b => [22, a, b]
  | .not a b => [23, a, b]
  | .length a b => [24, a, b]
  | .concat a n => [25, a, n]
  | .close a => [26, a]
  | .markClose a => [27, a]
  | .jump t => [28, t]
  | .compare op a b k => 29 :: (comparisons.idxOf op) :: a :: ofBool k :: ofSource b
  | .test a k => [30, a, ofBool k]
  | .testSet a b k => [31, a, b, ofBool k]
  | .call a n r => [32, a, ofCount n, ofCount r]
  | .tailCall a n c => [33, a, ofCount n, ofBool c]
  | .return a n c => [34, a, ofCount n, ofBool c]
  | .forLoop a t => [35, a, t]
  | .forPrep a t => [36, a, t]
  | .iterPrep a t => [37, a, t]
  | .iterCall a n => [38, a, n]
  | .iterLoop a t => [39, a, t]
  | .setList a n o => [40, a, ofCount n, o]
  | .closure a k => [41, a, k]
  | .vararg a n => [42, a, ofCount n]
  | .varargPrep n => [43, n]

/-- The numbers of a byte string that may be absent. -/
def ofName : Option Bytes → List Nat
  | none => [0]
  | some s => 1 :: ofBytes s

/-- The numbers of the notes on a function. -/
def ofNotes (n : FunctionNotes) : List Nat :=
  ofName n.source ++ [n.lineDefined] ++ ofItems (fun l => [l]) n.lines
    ++ ofItems (fun l => ofBytes l.name ++ [l.start, l.stop]) n.locals ++ ofItems ofBytes n.captureNames

mutual

/-- The numbers of a function: its own, and those of the inner ones behind how
many there are. -/
def ofFunction : FunctionCode → List Nat
  | ⟨params, isVararg, registers, code, consts, captures, notes, children⟩ =>
    [params, ofBool isVararg, registers] ++ ofItems ofInstr code ++ ofItems ofConst consts
      ++ ofItems (fun c => [ofBool c.fromRegister, c.index]) captures ++ ofNotes notes
      ++ children.length :: ofFunctions children

/-- The numbers of functions, one after the other. -/
def ofFunctions : List FunctionCode → List Nat
  | [] => []
  | f :: rest => ofFunction f ++ ofFunctions rest

end

/-! ## Reading -/

/-- Reads from a list of numbers. -/
abbrev Reader := StateT (List Nat) Option

/-- The next number. -/
def number : Reader Nat := do
  match ← get with
  | [] => failure
  | n :: rest => do
    set rest
    return n

/-- `n` things, one after the other. -/
def repeated {α : Type} (r : Reader α) : Nat → Array α → Reader (Array α)
  | 0, acc => pure acc
  | n + 1, acc => do repeated r n (acc.push (← r))

/-- Things behind their number; never more than there are numbers left. -/
def items {α : Type} (r : Reader α) : Reader (Array α) := do
  let n ← number
  if (← get).length < n then failure else repeated r n #[]

/-- A byte string. -/
def bytes : Reader Bytes := do
  let bs ← items number
  return ⟨bs.map Nat.toUInt8⟩

/-- A truth value. -/
def bool : Reader Bool := do return (← number) != 0

/-- A number that may be absent. -/
def count : Reader (Option Nat) := do
  let n ← number
  return if n == 0 then none else some (n - 1)

/-- A constant. -/
def const : Reader Const := do
  match ← number with
  | 0 => return .nil
  | 1 => return .bool (← bool)
  | 2 => return .int (UInt64.ofNat (← number)).toInt64
  | 3 => return .float (UInt64.ofNat (← number))
  | 4 => return .str (← bytes)
  | _ => failure

/-- An operand. -/
def source : Reader Source := do
  match ← number with
  | 0 => return .reg (← number)
  | 1 => return .const (← number)
  | 2 => return .small (toInt (← number)) false
  | 3 => return .small (toInt (← number)) true
  | _ => failure

/-- An instruction. -/
def instr : Reader Instr := do
  match ← number with
  | 0 => return .move (← number) (← number)
  | 1 => return .loadInt (← number) (toInt (← number))
  | 2 => return .loadFloat (← number) (toInt (← number))
  | 3 => return .loadConst (← number) (← number)
  | 4 => return .loadFalse (← number)
  | 5 => return .loadFalseSkip (← number)
  | 6 => return .loadTrue (← number)
  | 7 => return .loadNil (← number) (← number)
  | 8 => return .getCaptured (← number) (← number)
  | 9 => return .setCaptured (← number) (← number)
  | 10 => return .getCapturedField (← number) (← number) (← number)
  | 11 => return .getIndex (← number) (← number) (← number)
  | 12 => return .getInt (← number) (← number) (← number)
  | 13 => return .getField (← number) (← number) (← number)
  | 14 => return .setCapturedField (← number) (← number) (← source)
  | 15 => return .setIndex (← number) (← number) (← source)
  | 16 => return .setInt (← number) (← number) (← source)
  | 17 => return .setField (← number) (← number) (← source)
  | 18 => return .newTable (← number) (← number) (← number)
  | 19 => return .self (← number) (← number) (← source)
  | 20 => do
    let op := operators.getD (← number) .add
    let a ← number
    let b ← number
    let flipped ← bool
    return .arith op a b (← source) flipped
  | 21 => return .negate (← number) (← number)
  | 22 => return .complement (← number) (← number)
  | 23 => return .not (← number) (← number)
  | 24 => return .length (← number) (← number)
  | 25 => return .concat (← number) (← number)
  | 26 => return .close (← number)
  | 27 => return .markClose (← number)
  | 28 => return .jump (← number)
  | 29 => do
    let op := comparisons.getD (← number) .eq
    let a ← number
    let k ← bool
    return .compare op a (← source) k
  | 30 => return .test (← number) (← bool)
  | 31 => return .testSet (← number) (← number) (← bool)
  | 32 => return .call (← number) (← count) (← count)
  | 33 => return .tailCall (← number) (← count) (← bool)
  | 34 => return .return (← number) (← count) (← bool)
  | 35 => return .forLoop (← number) (← number)
  | 36 => return .forPrep (← number) (← number)
  | 37 => return .iterPrep (← number) (← number)
  | 38 => return .iterCall (← number) (← number)
  | 39 => return .iterLoop (← number) (← number)
  | 40 => return .setList (← number) (← count) (← number)
  | 41 => return .closure (← number) (← number)
  | 42 => return .vararg (← number) (← count)
  | 43 => return .varargPrep (← number)
  | _ => failure

/-- A byte string that may be absent. -/
def name : Reader (Option Bytes) := do
  match ← number with
  | 0 => return none
  | _ => return some (← bytes)

/-- The notes on a function. -/
def notes : Reader FunctionNotes := do
  let source ← name
  let lineDefined ← number
  let lines ← items number
  let locals ← items do return ⟨← bytes, ← number, ← number⟩
  let captureNames ← items bytes
  return { source, lineDefined, lines, locals, captureNames }

/-- A function; the first argument bounds how deep inner ones may be nested. -/
def function : Nat → Reader FunctionCode
  | 0 => failure
  | n + 1 => do
    let params ← number
    let isVararg ← bool
    let registers ← number
    let code ← items instr
    let consts ← items const
    let captures ← items do return ⟨← bool, ← number⟩
    let notes ← notes
    let children ← items (function n)
    return { params, isVararg, registers, code, consts, captures, notes, children := children.toList }

/-- The index behind the head, or what is wrong with it. -/
def skipHead (b : Bytes) : Nat → List (Bytes × String) → Except String Nat
  | i, [] => .ok i
  | i, (part, reason) :: rest =>
    if b.size < i + part.size then .error "truncated chunk"
    else if b.holdsAt part i then skipHead b (i + part.size) rest
    else .error reason

/-- The chunk of an archive, or what is wrong with it. -/
def read (b : Bytes) : Except String Chunk := do
  let i ← skipHead b 1 head
  match numbersOf (b.slice i b.size).data.toList with
  | none => .error "truncated chunk"
  | some words =>
    match (function words.length).run words with
    | some (c, []) => .ok c
    | _ => .error "truncated chunk"

/-- Does a byte string claim to be an archive? -/
def isArchive (b : Bytes) : Bool := b.size != 0 && b.byteAt 0 == firstByte

end Archive

/-- The bytes of a chunk. -/
def FunctionCode.archive (c : Chunk) : Bytes :=
  let start := Archive.head.foldl (fun acc part => acc ++ part.1) (Bytes.single Archive.firstByte)
  (Archive.ofFunction c).foldl (fun acc n => Archive.numberBytes (Archive.numberSize n) n acc) start

end NpcDialog.Lua
