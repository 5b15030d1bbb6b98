import NpcDialog.Lua.Fault

/-!
# Names for error messages

A message calls an operand what the program calls it: a local variable, a
field, a constant.  The names are worked out from the code: the last
instruction that certainly set a register tells what the register holds.
Functions without notes keep the names that the code itself holds, which are
those of fields and constants.

* `Naming.objectName` — what a register holds.
* `Naming.calleeName` — what an instruction calls.
* `Fault.text` — the message of a fault.
-/

namespace NpcDialog.Lua

open Bytes (ofText)

/-- A kind of thing and its name. -/
structure Description where
  /-- The kind, as messages call it. -/
  kind : String
  /-- The name. -/
  name : Bytes

namespace Naming

/-- Does the instruction change a register? -/
def changes (i : Instr) (reg : Nat) : Bool :=
  match i with
  | .move a _ | .loadInt a _ | .loadFloat a _ | .loadConst a _ | .loadFalse a | .loadFalseSkip a
  | .loadTrue a | .getCaptured a _ | .getCapturedField a _ _ | .getIndex a _ _ | .getInt a _ _
  | .getField a _ _ | .newTable a _ _ | .self a _ _ | .arith _ a _ _ _ | .negate a _
  | .complement a _ | .not a _ | .length a _ | .concat a _ | .testSet a _ _ | .forLoop a _
  | .forPrep a _ | .iterLoop a _ | .closure a _ | .vararg a _ | .varargPrep a => reg == a
  | .loadNil a last => a ≤ reg && reg ≤ last
  | .iterCall a _ => a + 2 ≤ reg
  | .call a _ _ | .tailCall a _ _ => a ≤ reg
  | _ => false

/-- The search behind `setter?`: the instructions from `pc` on, `n` of them. -/
def setterFrom (code : Array Instr) (last reg : Nat) :
    Nat → Nat → Nat → Option Nat → Option Nat
  | 0, _, _, found => found
  | n + 1, pc, target, found =>
    match code[pc]? with
    | some (.jump dest) =>
      let target := if dest ≤ last && target < dest then dest else target
      setterFrom code last reg n (pc + 1) target found
    | some i =>
      let found := if changes i reg then (if pc < target then none else some pc) else found
      setterFrom code last reg n (pc + 1) target found
    | none => found

/-- The last instruction in front of `last` that set a register, if it certainly
did: one that a jump may have passed over does not count. -/
def setter? (code : Array Instr) (last reg : Nat) : Option Nat :=
  setterFrom code last reg last 0 0 none

/-- The variable in a register at an instruction. -/
def localFrom (pc : Nat) : List LocalNote → Nat → Option Bytes
  | [], _ => none
  | n :: rest, reg =>
    if n.start ≤ pc then
      if pc < n.stop then
        match reg with
        | 0 => some n.name
        | r + 1 => localFrom pc rest r
      else localFrom pc rest reg
    else none

/-- The name of a captured variable. -/
def captureName (f : FunctionCode) (u : Nat) : Bytes := f.notes.captureNames.getD u (ofText "?")

/-- The name that a constant is, if it is a string. -/
def constName (f : FunctionCode) (k : Nat) : Option Bytes :=
  match f.consts[k]? with
  | some (.str s) => some s
  | _ => none

/-- A string constant as a description. -/
def constDescription (f : FunctionCode) (k : Nat) : Option Description :=
  (constName f k).map fun s => ⟨"constant", s⟩

/-- What a register holds, if that is a variable or a constant; otherwise the
instruction that set it.  The first argument bounds the copies in between. -/
def basicName (f : FunctionCode) :
    Nat → Nat → Nat → Option Description × Option Nat
  | 0, _, _ => (none, none)
  | n + 1, pc, reg =>
    match localFrom pc f.notes.locals.toList reg with
    | some name => (some ⟨"local", name⟩, some pc)
    | none =>
      match setter? f.code pc reg with
      | none => (none, none)
      | some at_ =>
        match f.code[at_]? with
        | some (.move a b) => if b < a then basicName f n at_ b else (none, some at_)
        | some (.getCaptured _ u) => (some ⟨"upvalue", captureName f u⟩, some at_)
        | some (.loadConst _ k) => (constDescription f k, some at_)
        | _ => (none, some at_)

/-- The greatest number of copies that are followed. -/
def copies : Nat := 256

/-- Is a name that of the environment? -/
def isEnvironment (name : Bytes) : Bool := name == ofText "_ENV"

/-- The kind of a field whose table is in a register. -/
def fieldKind (f : FunctionCode) (pc t : Nat) : String :=
  match (basicName f copies pc t).1 with
  | some d => if d.kind != "constant" && isEnvironment d.name then "global" else "field"
  | none => "field"

/-- The name of a key that is in a register. -/
def keyName (f : FunctionCode) (pc reg : Nat) : Bytes :=
  match (basicName f copies pc reg).1 with
  | some d => if d.kind == "constant" then d.name else ofText "?"
  | none => ofText "?"

/-- What a register holds at an instruction. -/
def objectName (f : FunctionCode) (pc reg : Nat) : Option Description :=
  match basicName f copies pc reg with
  | (some d, _) => some d
  | (none, none) => none
  | (none, some at_) =>
    match f.code[at_]? with
    | some (.getCapturedField _ u k) =>
      let kind := if isEnvironment (captureName f u) then "global" else "field"
      some ⟨kind, (constName f k).getD (ofText "?")⟩
    | some (.getIndex _ t key) => some ⟨fieldKind f at_ t, keyName f at_ key⟩
    | some (.getInt _ _ _) => some ⟨"field", ofText "integer index"⟩
    | some (.getField _ t k) => some ⟨fieldKind f at_ t, (constName f k).getD (ofText "?")⟩
    | some (.self _ _ (.const k)) => some ⟨"method", (constName f k).getD (ofText "?")⟩
    | some (.self _ _ (.reg r)) => some ⟨"method", keyName f at_ r⟩
    | _ => none

/-- A metamethod as a description. -/
def metamethodNamed (event : String) : Option Description := some ⟨"metamethod", ofText event⟩

/-- What an instruction calls. -/
def calleeName (f : FunctionCode) (pc : Nat) : Option Description :=
  match f.code[pc]? with
  | some (.call a _ _) | some (.tailCall a _ _) => objectName f pc a
  | some (.iterCall _ _) => some ⟨"for iterator", ofText "for iterator"⟩
  | some (.self _ _ _) | some (.getCapturedField _ _ _) | some (.getIndex _ _ _)
  | some (.getInt _ _ _) | some (.getField _ _ _) => metamethodNamed "index"
  | some (.setCapturedField _ _ _) | some (.setIndex _ _ _) | some (.setInt _ _ _)
  | some (.setField _ _ _) => metamethodNamed "newindex"
  | some (.arith op _ _ _ _) => metamethodNamed op.name
  | some (.negate _ _) => metamethodNamed "unm"
  | some (.complement _ _) => metamethodNamed "bnot"
  | some (.length _ _) => metamethodNamed "len"
  | some (.concat _ _) => metamethodNamed "concat"
  | some (.compare .eq _ (.reg _) _) => metamethodNamed "eq"
  | some (.compare .eq _ _ _) => none
  | some (.compare .lt _ _ _) | some (.compare .gt _ _ _) => metamethodNamed "lt"
  | some (.compare .le _ _ _) | some (.compare .ge _ _ _) => metamethodNamed "le"
  | some (.close _) | some (.return _ _ _) => metamethodNamed "close"
  | _ => none

end Naming

namespace Position

/-- The line of an instruction, if it is known. -/
def line? (p : Position) : Option Nat := p.function.notes.lines[p.pc]?

/-- The name of the chunk an instruction is in. -/
def label (p : Position) : Bytes :=
  match p.function.notes.source with
  | some s => chunkLabel s
  | none => ofText "?"

/-- The place of an instruction, whether or not its line is known. -/
def text : Option Position → Bytes
  | none => ByteArray.empty
  | some p =>
    let line := p.line?.elim (ofText "-1") Bytes.ofNat
    p.label ++ ofText ":" ++ line ++ ofText ": "

/-- The place of an instruction if its line is known. -/
def knownText : Option Position → Bytes
  | none => ByteArray.empty
  | some p =>
    match p.line? with
    | some line => p.label ++ ofText ":" ++ Bytes.ofNat line ++ ofText ": "
    | none => ByteArray.empty

/-- What an operand of an instruction is. -/
def originName (p : Position) : Origin → Option Description
  | .register r => Naming.objectName p.function p.pc r
  | .captured u => some ⟨"upvalue", Naming.captureName p.function u⟩
  | .elsewhere => none

/-- What an instruction calls. -/
def calleeName (p : Position) : Option Description := Naming.calleeName p.function p.pc

end Position

/-- A description in parentheses behind a message. -/
def Description.suffix (d : Option Description) : Bytes :=
  match d with
  | some d => ofText " (" ++ ofText d.kind ++ ofText " " ++ quoted d.name.beforeZero ++ ofText ")"
  | none => ByteArray.empty

/-- The message of a fault, if it has one: a raised value speaks for itself. -/
def Fault.text : Fault → Option Bytes
  | .value _ => none
  | .message place text => some (Position.text place ++ text)
  | .located place text => some (Position.knownText place ++ text)
  | .operand place before origin behind =>
    let name := place.bind fun p => p.originName origin
    some (Position.text place ++ before ++ Description.suffix name ++ behind)
  | .call place typeName origin =>
    let name := place.bind fun p => p.calleeName.orElse fun _ => p.originName origin
    some (Position.text place ++ ofText "attempt to call a " ++ typeName ++ ofText " value"
      ++ Description.suffix name)
  | .notClosable place r =>
    let name := place.bind fun p => Naming.localFrom p.pc p.function.notes.locals.toList r
    some (Position.text place ++ ofText "variable " ++ quoted (name.getD (ofText "(temporary)"))
      ++ ofText " got a non-closable value")
  | .argument caller globalName number extra =>
    let callee := caller.bind Position.calleeName
    let place := Position.knownText caller
    let name := ((callee.map Description.name).orElse fun _ => globalName).getD (ofText "?")
    let isMethod := (callee.map Description.kind) == some "method"
    if isMethod && number == 1 then
      some (place ++ ofText "calling " ++ quoted name ++ ofText " on bad self (" ++ extra ++ ofText ")")
    else
      let shown := if isMethod then number - 1 else number
      some (place ++ ofText "bad argument #" ++ Bytes.ofNat shown ++ ofText " to " ++ quoted name
        ++ ofText " (" ++ extra ++ ofText ")")
  | .memory => some (ofText "not enough memory")
  | .handling => some (ofText "error in error handling")
  | .nesting => some (ofText "C stack overflow")
  | .exhausted => some (ofText "step budget spent")

/-- The value that a fault is to the program. -/
def Fault.toValue (f : Fault) : Value :=
  match f with
  | .value v => v
  | f => .str (f.text.getD ByteArray.empty)

end NpcDialog.Lua
