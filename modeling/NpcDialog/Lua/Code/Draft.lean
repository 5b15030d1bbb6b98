import NpcDialog.Lua.Code
import NpcDialog.Lua.Token

/-!
# Functions under construction

The state of compilation: the function being written, those around it, and how
far the walk over the tokens has come.  The position decides the lines of the
instructions and the wording of the faults that are found on the way.

* `Captures` — the variables that a function captures.
* `Compiled` — a finished function.
* `Draft` — a function under construction.
* `Gen` — a step of compilation.
* `Gen.advance` — the walk over the tokens.
* `Gen.emit` — a new instruction, on the line of the token left behind last.
-/

namespace NpcDialog.Lua

open Bytes (ofText)

/-- What kind of variable a name stands for. -/
inductive VariableKind where
  /-- An ordinary variable. -/
  | regular
  /-- A variable that cannot be assigned. -/
  | const
  /-- A variable that cannot be assigned and is closed at its end. -/
  | close
  /-- A name for a constant, which has no register. -/
  | compileTime (value : Const)

/-- A local variable in scope. -/
structure Variable where
  /-- Its name. -/
  name : Bytes
  /-- Its kind. -/
  kind : VariableKind
  /-- Its register. -/
  register : Nat
  /-- The index of its note. -/
  note : Nat

/-- The name of a variable as notes keep it: it has no zero byte. -/
structure Name where
  /-- Its bytes. -/
  bytes : Bytes
  /-- None of them is zero. -/
  plain : bytes.beforeZero = bytes

/-- The name that a byte string begins with. -/
def Name.ofBytes (b : Bytes) : Name := ⟨b.beforeZero, b.beforeZero_beforeZero⟩

/-- A captured variable of a function under construction. -/
structure Capture where
  /-- Its name. -/
  name : Name
  /-- Where it comes from. -/
  source : CaptureSource
  /-- Can it not be assigned? -/
  isConst : Bool

/-- The captured variables of a function under construction, each under a name
of its own. -/
structure Captures where
  /-- The variables. -/
  list : Array Capture
  /-- Their names are distinct. -/
  distinct : (list.toList.map (Name.bytes ∘ Capture.name)).Nodup

/-- The captured variables with one more. -/
def Captures.push (cs : Captures) (c : Capture) (new : c.name.bytes ∉ cs.list.toList.map (Name.bytes ∘ Capture.name)) :
    Captures where
  list := cs.list.push c
  distinct := by
    rw [Array.toList_push, List.map_append, List.nodup_append]
    refine ⟨cs.distinct, by simp, ?_⟩
    rintro name mem _ (_ | ⟨_, ⟨⟩⟩) rfl
    exact new mem

/-- A finished function. -/
structure Compiled where
  /-- The function. -/
  code : FunctionCode
  /-- Its captured variables and those of inner functions are known by names of
  their own. -/
  named : code.AllNamed

/-- A place to jump to. -/
structure LabelMark where
  /-- The label's name. -/
  name : Bytes
  /-- The instruction. -/
  pc : Nat
  /-- The line of the statement. -/
  line : Nat
  /-- How many variables are in scope there. -/
  vars : Nat

/-- A jump without a target yet. -/
structure JumpMark where
  /-- The label's name. -/
  name : Bytes
  /-- The jump instructions. -/
  pcs : List Nat
  /-- The line of the statement. -/
  line : Nat
  /-- How many variables are in scope there. -/
  vars : Nat
  /-- Does the jump leave the scope of a captured variable? -/
  closes : Bool

/-- A block under construction. -/
structure Scope where
  /-- Number of labels in front of the block. -/
  firstLabel : Nat
  /-- Number of pending jumps in front of the block. -/
  firstJump : Nat
  /-- Number of variables in front of the block. -/
  vars : Nat
  /-- Is a variable of the block captured or to be closed? -/
  hasCaptured : Bool
  /-- Is the block a loop? -/
  isLoop : Bool
  /-- Is the block in the scope of a variable to be closed? -/
  inClosing : Bool

/-- A function under construction. -/
structure Draft where
  /-- Line on which it begins, zero for a whole text. -/
  lineDefined : Nat
  /-- Number of named parameters. -/
  params : Nat
  /-- Does it take extra arguments? -/
  isVararg : Bool
  /-- Greatest number of registers in use so far. -/
  registers : Nat
  /-- Instructions. -/
  code : Array Instr
  /-- Lines of the instructions. -/
  lines : Array Nat
  /-- Constants. -/
  consts : Array Const
  /-- Inner functions. -/
  children : Array Compiled
  /-- Captured variables. -/
  captures : Captures
  /-- Notes on local variables. -/
  locals : Array LocalNote
  /-- Declared variables; those beyond `active` are not in scope yet. -/
  vars : Array Variable
  /-- Number of variables in scope. -/
  active : Nat
  /-- First free register. -/
  free : Nat
  /-- Blocks, the innermost first. -/
  scopes : List Scope
  /-- Labels in scope. -/
  labels : Array LabelMark
  /-- Jumps without a target yet. -/
  jumps : Array JumpMark
  /-- Position of the last jump target. -/
  lastTarget : Nat
  /-- Does leaving the function have to close variables? -/
  needsClose : Bool

/-- A function without any code. -/
def Draft.start (lineDefined : Nat) : Draft where
  lineDefined := lineDefined
  params := 0
  isVararg := false
  registers := 2
  code := #[]
  lines := #[]
  consts := #[]
  children := #[]
  captures := ⟨#[], List.nodup_nil⟩
  locals := #[]
  vars := #[]
  active := 0
  free := 0
  scopes := []
  labels := #[]
  jumps := #[]
  lastTarget := 0
  needsClose := false

/-- The state of compilation. -/
structure Builder where
  /-- Name of the text. -/
  source : Bytes
  /-- The tokens of the text. -/
  tokens : Array Token
  /-- How many tokens have been left behind. -/
  consumed : Nat
  /-- The function being written. -/
  draft : Draft
  /-- The functions around it, the innermost first. -/
  outer : List Draft

/-- A step of compilation. -/
abbrev Gen := StateT Builder (Except ChunkFault)

namespace Gen

/-! ## The walk over the tokens -/

/-- The token at an index; past the end it is the end of the text. -/
def tokenAt (b : Builder) (i : Nat) : Token :=
  match b.tokens[i]? with
  | some t => t
  | none => ⟨.stop, ByteArray.empty, 0⟩

/-- The line of the next token. -/
def nextLine : Gen Nat := do
  let b ← get
  return (tokenAt b b.consumed).line

/-- Fails if the next token is unreadable. -/
def checkReadable : Gen Unit := do
  let b ← get
  let t := tokenAt b b.consumed
  match t.kind with
  | .unreadable reason => throw (.message t.line reason)
  | _ => return ()

/-- Leaves the next token behind. -/
def advance : Gen Unit := do
  modify fun b => { b with consumed := b.consumed + 1 }
  checkReadable

/-- Leaves several tokens behind. -/
def advanceBy (n : Nat) : Gen Unit := n.forM fun _ _ => advance

/-- Fails with a message that quotes the next token. -/
def faultNear {α : Type} (message : Bytes) : Gen α := do
  let b ← get
  let t := tokenAt b b.consumed
  throw (.message t.line (message ++ t.nearSuffix))

/-- Fails with a message about the line of the next token. -/
def faultPlain {α : Type} (message : Bytes) : Gen α := do
  throw (.message (← nextLine) message)

/-! ## The function being written -/

/-- The function being written. -/
@[inline] def draft : Gen Draft := return (← get).draft

/-- Changes the function being written. -/
@[inline] def change (f : Draft → Draft) : Gen Unit := modify fun b => { b with draft := f b.draft }

/-- Fails because a function has too many of something. -/
def faultLimit {α : Type} (what : String) (limit : Nat) : Gen α := do
  let d ← draft
  let place :=
    if d.lineDefined == 0 then ofText "main function"
    else ofText "function at line " ++ Bytes.ofNat d.lineDefined
  faultNear (ofText ("too many " ++ what ++ " (limit is ") ++ Bytes.ofNat limit ++ ofText ") in "
    ++ place)

/-- The position of the next instruction. -/
def here : Gen Nat := return (← draft).code.size

/-- Marks the position of the next instruction as the target of a jump. -/
def label : Gen Nat := do
  let pc ← here
  change fun d => { d with lastTarget := pc }
  return pc

/-- Appends an instruction, on the line of the token left behind last. -/
def emit (i : Instr) : Gen Nat := do
  let b ← get
  let line := if b.consumed == 0 then 1 else (tokenAt b (b.consumed - 1)).line
  let pc := b.draft.code.size
  change fun d => { d with code := d.code.push i, lines := d.lines.push line }
  return pc

/-- Puts the last instruction on another line. -/
def fixLine (line : Nat) : Gen Unit :=
  change fun d => { d with lines := d.lines.setIfInBounds (d.lines.size - 1) line }

/-- Replaces an instruction. -/
def patch (pc : Nat) (f : Instr → Instr) : Gen Unit :=
  change fun d => { d with code := d.code.modify pc f }

/-- The instruction at a position. -/
def instrAt (pc : Nat) : Gen (Option Instr) := return (← draft).code[pc]?

/-- Drops the last instruction. -/
def removeLast : Gen Unit :=
  change fun d => { d with code := d.code.pop, lines := d.lines.pop }

/-- The last instruction, unless a jump may lead behind it. -/
def previous : Gen (Option Instr) := do
  let d ← draft
  if d.lastTarget < d.code.size then return d.code[d.code.size - 1]? else return none

/-! ## Registers -/

/-- The register level that the first `n` variables take. -/
def levelOf (d : Draft) : Nat → Nat
  | 0 => 0
  | n + 1 =>
    match d.vars[n]? with
    | some v =>
      match v.kind with
      | .compileTime _ => levelOf d n
      | _ => v.register + 1
    | none => levelOf d n

/-- The number of registers that hold variables. -/
def variableLevel : Gen Nat := do
  let d ← draft
  return levelOf d d.active

/-- Makes sure that `n` more registers can be used. -/
def checkRegisters (n : Nat) : Gen Unit := do
  let d ← draft
  let need := d.free + n
  if d.registers < need then
    if 255 ≤ need then faultNear (ofText "function or expression needs too many registers")
    change fun d => { d with registers := need }

/-- Takes `n` registers. -/
def reserve (n : Nat) : Gen Unit := do
  checkRegisters n
  change fun d => { d with free := d.free + n }

/-- Gives a register back unless a variable lives there. -/
def release (r : Nat) : Gen Unit := do
  if (← variableLevel) ≤ r then change fun d => { d with free := d.free - 1 }

/-- Gives two registers back, the higher one first. -/
def releaseBoth (r s : Option Nat) : Gen Unit := do
  match r, s with
  | some r, some s =>
    if s < r then
      release r
      release s
    else
      release s
      release r
  | some r, none => release r
  | none, some s => release s
  | none, none => return ()

/-! ## Constants -/

/-- The index of a constant, which is added if it is new. -/
def constant (c : Const) : Gen Nat := do
  let d ← draft
  match d.consts.findIdx? (Const.same c) with
  | some k => return k
  | none =>
    change fun d => { d with consts := d.consts.push c }
    return d.consts.size

/-- The constant at an index. -/
def constAt (k : Nat) : Gen (Option Const) := return (← draft).consts[k]?

end Gen

end NpcDialog.Lua
