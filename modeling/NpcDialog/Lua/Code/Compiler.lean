import NpcDialog.Lua.Code.Operand
import NpcDialog.Lua.Tree.Reader

/-!
# From text to code

The walk over a program tree that writes its code.  Names are resolved on the
way: to a register, to a variable captured from an enclosing function, to a
constant, or to a field of the environment.

* `Gen.resolve` — what a name stands for.
* `Gen.openScope`, `Gen.closeScope` — blocks, with the jumps that leave them.
* `Gen.expr`, `Gen.stats` — the walk.
* `Chunk.compile` — the code of a text, or why it has none.
-/

namespace NpcDialog.Lua

open Bytes (ofText)

/-- The name of the variable that holds the environment. -/
def envName : Name := .ofBytes (ofText "_ENV")

/-- Is the variable one that cannot be assigned? -/
def VariableKind.isConst : VariableKind → Bool
  | .regular => false
  | _ => true

/-- What a name stands for. -/
inductive Resolution where
  /-- A field of the environment. -/
  | global
  /-- A local variable: its register and its index. -/
  | variable (r index : Nat)
  /-- A captured variable. -/
  | captured (u : Nat)
  /-- A constant. -/
  | compileTime (value : Const)

/-- The innermost variable of a name among the first `n`, with its index. -/
def Draft.findVariable (d : Draft) (name : Bytes) : Nat → Option (Nat × Variable)
  | 0 => none
  | n + 1 =>
    match d.vars[n]? with
    | some v => if v.name == name then some (n, v) else d.findVariable name n
    | none => d.findVariable name n

/-- Notes on the block of a variable that the variable is captured. -/
def markScopes (index : Nat) : List Scope → List Scope
  | [] => []
  | s :: rest =>
    if index < s.vars then s :: markScopes index rest
    else { s with hasCaptured := true } :: rest

/-- The function with a variable of its own marked as captured. -/
def Draft.markCaptured (d : Draft) (index : Nat) : Draft :=
  { d with scopes := markScopes index d.scopes, needsClose := true }

/-- The most variables a function can capture. -/
def maxCaptures : Nat := 255

/-- The most local variables a function can have. -/
def maxLocals : Nat := 200

/-- What a name stands for by the variables of a function alone.  `inside`
tells that the name is used in the function itself, not in an inner one. -/
def Draft.resolveOwn (name : Name) (inside : Bool) (d : Draft) : Option (Draft × Resolution) :=
  match d.findVariable name.bytes d.active with
  | some (i, v) =>
    match v.kind with
    | .compileTime c => some (d, .compileTime c)
    | _ => some (if inside then d else d.markCaptured i, .variable v.register i)
  | none => (d.captures.list.findIdx? fun c => c.name.bytes == name.bytes).map fun u => (d, .captured u)

/-- A name that stands for nothing of a function's own is none of a captured
variable. -/
theorem Draft.notMem_of_resolveOwn {name : Name} {inside : Bool} {d : Draft}
    (unknown : d.resolveOwn name inside = none) :
    name.bytes ∉ d.captures.list.toList.map (Name.bytes ∘ Capture.name) := by
  unfold resolveOwn at unknown
  split at unknown
  · split at unknown <;> cases unknown
  · intro mem
    obtain ⟨c, there, same⟩ := List.mem_map.1 mem
    have absent := Array.findIdx?_eq_none_iff.1 (Option.map_eq_none_iff.1 unknown)
    exact ne_of_beq_false (absent c (by simpa using there)) same

/-- Lets a function capture one more variable.  The error is the line of the
function. -/
def Draft.addCapture (d : Draft) (c : Capture)
    (new : c.name.bytes ∉ d.captures.list.toList.map (Name.bytes ∘ Capture.name)) : Except Nat (Draft × Resolution) :=
  if maxCaptures ≤ d.captures.list.size then .error d.lineDefined
  else .ok ({ d with captures := d.captures.push c new }, .captured d.captures.list.size)

/-- Resolves a name in a function and those around it, the innermost first.  A
variable of an outer function becomes a captured variable of each function in
between. -/
def Draft.resolve (name : Name) (inside : Bool) (d : Draft) (outer : List Draft) :
    Except Nat (Draft × List Draft × Resolution) :=
  match unknown : d.resolveOwn name inside with
  | some (d, r) => .ok (d, outer, r)
  | none =>
    have new := Draft.notMem_of_resolveOwn unknown
    match outer with
    | [] => .ok (d, [], .global)
    | p :: rest => do
      let (p, rest, r) ← Draft.resolve name false p rest
      match r with
      | .variable reg i =>
        let isConst := (p.vars[i]?).any fun v => v.kind.isConst
        let (d, r) ← d.addCapture ⟨name, ⟨true, reg⟩, isConst⟩ new
        return (d, p :: rest, r)
      | .captured u =>
        let isConst := (p.captures.list[u]?).any Capture.isConst
        let (d, r) ← d.addCapture ⟨name, ⟨false, u⟩, isConst⟩ new
        return (d, p :: rest, r)
      | other => return (d, p :: rest, other)

namespace Gen

open Operand (plain)

/-! ## Variables -/

/-- Declares a local variable, which comes into scope later. -/
def declare (name : Bytes) (kind : VariableKind) : Gen Unit := do
  let d ← draft
  if maxLocals ≤ d.vars.size then faultLimit "local variables" maxLocals
  change fun d => { d with vars := d.vars.push ⟨name, kind, 0, 0⟩ }

/-- Brings the next `n` declared variables into scope. -/
def activate (n : Nat) : Gen Unit := do
  let level ← variableLevel
  n.forM fun i _ =>
    change fun d =>
      let name := (d.vars[d.active]?).elim ByteArray.empty Variable.name
      { d with
        vars := d.vars.modify d.active fun v =>
          { v with register := level + i, note := d.locals.size }
        locals := d.locals.push ⟨name, d.code.size, d.code.size⟩
        active := d.active + 1 }

/-- Ends the scope of all variables but the first `n`. -/
def deactivate (n : Nat) : Gen Unit :=
  change fun d =>
    let ended := d.vars.extract n d.active
    let locals := ended.foldl
      (fun notes v =>
        match v.kind with
        | .compileTime _ => notes
        | _ => notes.modify v.note fun note => { note with stop := d.code.size })
      d.locals
    { d with locals, vars := d.vars.extract 0 n, active := n }

/-- The operand of a name. -/
def lookup (name : Name) : Gen (Option Operand) := do
  let b ← get
  match b.draft.resolve name true b.outer with
  | .error line =>
    let place :=
      if line == 0 then ofText "main function" else ofText "function at line " ++ Bytes.ofNat line
    faultNear (ofText "too many upvalues (limit is " ++ Bytes.ofNat maxCaptures ++ ofText ") in " ++ place)
  | .ok (d, outer, r) =>
    set { b with draft := d, outer }
    match r with
    | .global => return none
    | .variable r i => return some (plain (.variable r i))
    | .captured u => return some (plain (.captured u))
    | .compileTime c => return some (plain (.compileTime c name.bytes))

/-- The operand of a variable; a name that is nowhere declared is a field of
the environment. -/
def nameOperand (name : Bytes) : Gen Operand := do
  match ← lookup (.ofBytes name) with
  | some e => return e
  | none =>
    let env := (← lookup envName).getD (plain .nil)
    let env ← Operand.toAnyOrCaptured env
    Operand.index env (plain (.str name))

/-- Fails if an operand is a variable that cannot be assigned. -/
def checkAssignable (e : Operand) : Gen Unit := do
  let d ← draft
  let name : Option Bytes :=
    match e.kind with
    | .compileTime _ name => some name
    | .variable _ i => (d.vars[i]?).bind fun v => if v.kind.isConst then some v.name else none
    | .captured u => (d.captures.list[u]?).bind fun c => if c.isConst then some c.name.bytes else none
    | _ => none
  match name with
  | some name => faultPlain (ofText "attempt to assign to const variable " ++ quoted name)
  | none => return ()

/-! ## Blocks -/

/-- Begins a block. -/
def openScope (isLoop : Bool) : Gen Unit :=
  change fun d =>
    { d with
      scopes := ⟨d.labels.size, d.jumps.size, d.active, false, isLoop,
        (d.scopes.head?).any Scope.inClosing⟩ :: d.scopes }

/-- Changes the innermost block. -/
def changeScope (f : Scope → Scope) : Gen Unit :=
  change fun d =>
    { d with
      scopes :=
        match d.scopes with
        | s :: rest => f s :: rest
        | [] => [] }

/-- Notes that the innermost block has a variable to be closed. -/
def markClosing : Gen Unit := do
  changeScope fun s => { s with hasCaptured := true, inClosing := true }
  change fun d => { d with needsClose := true }

/-- A jump to a label that comes later. -/
def pendingJump (name : Bytes) (line : Nat) (pcs : List Nat) : Gen Unit :=
  change fun d => { d with jumps := d.jumps.push ⟨name, pcs, line, d.active, false⟩ }

/-- Lets the pending jumps of the innermost block that name a label lead there.
The answer tells whether one of them leaves the scope of a captured variable. -/
def solveJumps (target : LabelMark) : Gen Bool := do
  let d ← draft
  let first := (d.scopes.head?).elim 0 Scope.firstJump
  let own := d.jumps.extract first d.jumps.size
  let matching := own.filter fun j => j.name == target.name
  matching.forM fun j => do
    if j.vars < target.vars then
      let name := (d.vars[j.vars]?).elim ByteArray.empty Variable.name
      faultPlain (ofText "<goto " ++ j.name ++ ofText "> at line " ++ Bytes.ofNat j.line
        ++ ofText " jumps into the scope of local " ++ quoted name)
    Operand.patchTo j.pcs target.pc
  change fun d =>
    { d with jumps := d.jumps.extract 0 first ++ own.filter fun j => j.name != target.name }
  return matching.any JumpMark.closes

/-- Makes a label at the next instruction.  A label at the end of a block
counts as behind the block's variables.  The answer tells whether variables
had to be closed there. -/
def makeLabel (name : Bytes) (line : Nat) (last : Bool) : Gen Bool := do
  let pc ← label
  let d ← draft
  let vars := if last then (d.scopes.head?).elim 0 Scope.vars else d.active
  let mark : LabelMark := ⟨name, pc, line, vars⟩
  change fun d => { d with labels := d.labels.push mark }
  if ← solveJumps mark then
    discard (emit (.close (← variableLevel)))
    return true
  else return false

/-- The name of the label at the end of a loop. -/
def breakName : Bytes := ofText "break"

/-- Fails because a jump has no target. -/
def faultNoLabel {α : Type} (j : JumpMark) : Gen α :=
  if j.name == breakName then
    faultPlain (ofText "break outside loop at line " ++ Bytes.ofNat j.line)
  else
    faultPlain (ofText "no visible label " ++ quoted j.name ++ ofText " for <goto> at line "
      ++ Bytes.ofNat j.line)

/-- Ends a block: its variables go out of scope, the jumps out of a loop lead
here, and the other pending jumps are handed to the enclosing block. -/
def closeScope : Gen Unit := do
  let d ← draft
  match d.scopes with
  | [] => return ()
  | s :: outer =>
    let level := levelOf d s.vars
    deactivate s.vars
    let closed ← if s.isLoop then makeLabel breakName 0 false else pure false
    if !closed && !outer.isEmpty && s.hasCaptured then discard (emit (.close level))
    let before := d
    change fun d =>
      { d with free := level, labels := d.labels.extract 0 s.firstLabel, scopes := outer }
    let d ← draft
    if outer.isEmpty then
      match d.jumps[s.firstJump]? with
      | some j => faultNoLabel j
      | none => return ()
    else
      let moved := (d.jumps.extract s.firstJump d.jumps.size).map fun j =>
        let leaves := decide (level < levelOf before j.vars)
        { j with closes := j.closes || (leaves && s.hasCaptured), vars := s.vars }
      change fun d => { d with jumps := d.jumps.extract 0 s.firstJump ++ moved }

/-- The label of a name that is in scope. -/
def findLabel (name : Bytes) : Gen (Option LabelMark) :=
  return (← draft).labels.find? fun l => l.name == name

/-! ## Functions -/

/-- Begins a function. -/
def openFunction (lineDefined : Nat) : Gen Unit := do
  modify fun b => { b with outer := b.draft :: b.outer, draft := Draft.start lineDefined }
  openScope false

/-- Where a chain of jumps ends; the first argument bounds its length. -/
def finalTarget (code : Array Instr) : Nat → Nat → Nat
  | 0, pc => pc
  | n + 1, pc =>
    match code[pc]? with
    | some (.jump target) => finalTarget code n target
    | _ => pc

/-- The final form of an instruction. -/
def finishInstr (d : Draft) (i : Instr) : Instr :=
  match i with
  | .return a count _ => .return a count d.needsClose
  | .tailCall a args _ => .tailCall a args d.needsClose
  | .jump target => .jump (finalTarget d.code 99 target)
  | i => i

/-- The notes on a finished function. -/
def finishNotes (source : Bytes) (d : Draft) : FunctionNotes where
  source := some source
  lineDefined := d.lineDefined
  lines := d.lines
  locals := d.locals
  captureNames := d.captures.list.map (Name.bytes ∘ Capture.name)

/-- A finished function. -/
def finishCode (source : Bytes) (d : Draft) : FunctionCode where
  params := d.params
  isVararg := d.isVararg
  registers := d.registers
  code := d.code.map (finishInstr d)
  consts := d.consts
  captures := d.captures.list.map Capture.source
  notes := finishNotes source d
  children := d.children.toList.map Compiled.code

/-- A finished function, whose captured variables are known. -/
def finish (source : Bytes) (d : Draft) : Compiled where
  code := finishCode source d
  named := by
    refine .intro ⟨by simp [finishCode, finishNotes], ?_, ?_⟩ ?_
    · simpa [finishCode, finishNotes] using d.captures.distinct
    · intro n mem
      obtain ⟨c, -, rfl⟩ := Array.mem_map.1 mem
      exact c.name.plain
    · intro g mem
      obtain ⟨inner, -, rfl⟩ := List.mem_map.1 mem
      exact inner.named

/-- Ends the function being written, which is the answer, and goes back to the
enclosing one. -/
def closeFunction : Gen Compiled := do
  discard (emit (.return (← variableLevel) (some 0) false))
  closeScope
  let b ← get
  let d := b.draft
  set { b with
    draft := (b.outer.head?).getD d
    outer := b.outer.tail }
  return finish b.source d

/-- Makes the function one that takes extra arguments. -/
def setVararg : Gen Unit := do
  change fun d => { d with isVararg := true }
  discard (emit (.varargPrep (← draft).params))

/-- Walks over the parameters of a function and declares them. -/
def declareParams (isVararg : Bool) : List Bytes → Gen Unit
  | [] => if isVararg then advance else return ()
  | name :: rest => do
    advance
    declare name .regular
    if isVararg || !rest.isEmpty then advance
    declareParams isVararg rest

/-! ## Assignment -/

/-- Fits a list of expressions, of which the last is still open, to a number of
variables. -/
def adjust (vars count : Nat) (last : Operand) : Gen Unit := do
  if last.isMulti then
    let extra := vars + 1 - count
    Operand.setResults last (some extra)
  else
    match last.kind with
    | .void => pure ()
    | _ => discard (Operand.toNext last)
    if count < vars then Operand.emitNil (← draft).free (vars - count)
  if count < vars then reserve (vars - count)
  else change fun d => { d with free := d.free - (count - vars) }

/-- The earlier targets of an assignment once `v` is a target too.  A target
that uses the variable `v` as table or key goes on with a copy of it. -/
def avoidConflict (targets : List Operand) (v : Operand) : Gen (List Operand) := do
  let extra := (← draft).free
  let adapt (t : Operand) : Operand × Bool :=
    match t.kind, v.kind with
    | .capturedField u k, .captured w =>
      if u == w then ({ t with kind := .indexedName extra k }, true) else (t, false)
    | .indexedName r k, .variable s _ =>
      if r == s then ({ t with kind := .indexedName extra k }, true) else (t, false)
    | .indexedInt r i, .variable s _ =>
      if r == s then ({ t with kind := .indexedInt extra i }, true) else (t, false)
    | .indexed r key, .variable s _ =>
      let hit := r == s || key == s
      ({ t with kind := .indexed (if r == s then extra else r) (if key == s then extra else key) }, hit)
    | _, _ => (t, false)
  let adapted := targets.map adapt
  if adapted.any Prod.snd then
    match v.kind with
    | .variable r _ => discard (emit (.move extra r))
    | .captured u => discard (emit (.getCaptured extra u))
    | _ => pure ()
    reserve 1
  return adapted.map Prod.fst

/-- Is the operand a field? -/
def isField (e : Operand) : Bool :=
  match e.kind with
  | .indexed _ _ | .indexedInt _ _ | .indexedName _ _ | .capturedField _ _ => true
  | _ => false

/-- Stores the topmost registers in the given places, one after the other. -/
def storeTop (places : List Operand) : Gen Unit :=
  places.forM fun place => do
    Operand.store place (plain (.fixed ((← draft).free - 1)))

/-! ## Tables -/

/-- A table expression under construction. -/
structure TableDraft where
  /-- Register of the table. -/
  register : Nat
  /-- Elements stored so far. -/
  stored : Nat
  /-- Number of fields with keys. -/
  fields : Nat
  /-- Elements waiting in registers. -/
  waiting : Nat
  /-- The last element, which is still open. -/
  last : Operand

/-- How many elements wait before they are stored. -/
def elementsPerStore : Nat := 50

/-- Stores elements that wait in registers. -/
def emitSetList (t : TableDraft) (count : Option Nat) : Gen Unit := do
  discard (emit (.setList t.register count t.stored))
  change fun d => { d with free := t.register + 1 }

/-- Puts the open element into a register, and stores those that wait if they
are many. -/
def closeElement (t : TableDraft) : Gen TableDraft := do
  match t.last.kind with
  | .void => return t
  | _ =>
    discard (Operand.toNext t.last)
    let t := { t with last := plain .void }
    if t.waiting == elementsPerStore then
      emitSetList t (some t.waiting)
      return { t with stored := t.stored + t.waiting, waiting := 0 }
    else return t

/-- Stores the last elements of a table. -/
def closeElements (t : TableDraft) : Gen TableDraft := do
  if t.waiting == 0 then return t
  else if t.last.isMulti then
    Operand.setResults t.last none
    emitSetList t none
    return { t with stored := t.stored + t.waiting - 1 }
  else
    match t.last.kind with
    | .void => pure ()
    | _ => discard (Operand.toNext t.last)
    emitSetList t (some t.waiting)
    return { t with stored := t.stored + t.waiting }

/-! ## The walk over the tree -/

/-- Is the statement empty? -/
def isEmptyStat : Stat → Bool
  | .empty => true
  | _ => false

/-- Is the statement a `break`? -/
def isBreak : Stat → Bool
  | .break => true
  | _ => false

/-- Loads the step one of a numeric loop. -/
def defaultStep : Gen Unit := do
  Operand.emitNumber (← draft).free (.int 1)
  reserve 1

/-- The name of a loop's hidden variables. -/
def loopVariable : Bytes := ofText "(for state)"

/-- Declares the hidden variables of a loop. -/
def declareHidden (n : Nat) : Gen Unit := n.forM fun _ _ => declare loopVariable .regular

/-- Declares names that are separated by commas and follow at once. -/
def declareMore : List Bytes → Gen Unit
  | [] => return ()
  | name :: rest => do
    advanceBy 2
    declare name .regular
    declareMore rest

/-- Declares the names of a `local` statement. -/
def declareLocals : List (Bytes × Attribute) → Gen Unit
  | [] => return ()
  | (name, a) :: rest => do
    advance
    let kind :=
      match a with
      | .regular => VariableKind.regular
      | .const => .const
      | .close => .close
    declare name .regular
    if a != .regular then
      advanceBy 3
      change fun d =>
        { d with vars := d.vars.modify (d.vars.size - 1) fun v => { v with kind } }
    if !rest.isEmpty then advance
    declareLocals rest

/-- The fields of a function's name, each behind a point or a colon. -/
def namePath (e : Operand) : List Bytes → Gen Operand
  | [] => return e
  | name :: rest => do
    let e ← Operand.toAnyOrCaptured e
    advanceBy 2
    namePath (← Operand.index e (plain (.str name))) rest

/-- A jump to a label in scope, with the variables in between closed, or a jump
that waits for its label. -/
def emitGoto (name : Bytes) : Gen Unit := do
  let line ← nextLine
  advance
  match ← findLabel name with
  | none => pendingJump name line [← Operand.emitJump]
  | some l =>
    let level := levelOf (← draft) l.vars
    if level < (← variableLevel) then discard (emit (.close level))
    Operand.patchTo [← Operand.emitJump] l.pc

/-- The local variables of a `local` statement once their values are compiled:
`count` expressions, of which the last is still open. -/
def bindLocals (names : List (Bytes × Attribute)) (count : Nat) (last : Operand) : Gen Unit := do
  let n := names.length
  let constant :=
    match names.getLast? with
    | some (_, .const) => if n == count then last.const? else none
    | _ => none
  let closing := (← draft).active + (names.takeWhile fun p => p.2 != .close).length
  match constant with
  | some c =>
    change fun d =>
      { d with
        vars := d.vars.modify (d.vars.size - 1) fun v =>
          { v with kind := .compileTime c } }
    activate (n - 1)
    change fun d => { d with active := d.active + 1 }
  | none =>
    adjust n count last
    activate n
  if names.any fun p => p.2 == .close then
    markClosing
    discard (emit (.markClose (levelOf (← draft) closing)))

/-- The loop around the body of a `for` statement, in front of the body. -/
def beginLoop (base vars : Nat) (isGeneric : Bool) : Gen Nat := do
  advance
  let prep ← emit (if isGeneric then .iterPrep base 0 else .forPrep base 0)
  openScope false
  activate vars
  reserve vars
  return prep

/-- The loop around the body of a `for` statement, behind the body. -/
def endLoop (base vars line prep : Nat) (isGeneric : Bool) : Gen Unit := do
  closeScope
  Operand.fixJump prep (← label)
  if isGeneric then
    discard (emit (.iterCall base vars))
    fixLine line
  discard (emit (if isGeneric then .iterLoop base (prep + 1) else .forLoop base (prep + 1)))
  fixLine line

/-- The call instruction once function and arguments are compiled. -/
def finishCall (f last : Operand) (line : Nat) : Gen Operand := do
  let base := f.register?.getD 0
  let count ←
    if last.isMulti then pure none
    else do
      match last.kind with
      | .void => pure ()
      | _ => discard (Operand.toNext last)
      pure (some ((← draft).free - (base + 1)))
  let pc ← emit (.call base count (some 1))
  fixLine line
  change fun d => { d with free := base + 1 }
  return plain (.call pc)

/-- The beginning of a table expression: its instruction and the table without
any fields. -/
def beginTable : Gen (Nat × TableDraft) := do
  let pc ← emit (.newTable 0 0 0)
  let r := (← draft).free
  reserve 1
  advance
  return (pc, ⟨r, 0, 0, 0, plain .void⟩)

/-- The end of a table expression. -/
def endTable (pc : Nat) (t : TableDraft) : Gen Operand := do
  advance
  let t ← closeElements t
  patch pc fun _ => .newTable t.register t.fields t.stored
  return plain (.fixed t.register)

/-- The jumps that leave a loop because of its condition. -/
def conditionJumps (v : Operand) : Gen (List Nat) := do
  let v : Operand :=
    match v.kind with
    | .nil => { v with kind := .false }
    | _ => v
  return (← Operand.goIfTrue v).whenFalse

mutual

/-- An expression. -/
def expr : Expr → Gen Operand
  | .nil => do
    advance
    return plain .nil
  | .true => do
    advance
    return plain .true
  | .false => do
    advance
    return plain .false
  | .vararg => do
    let pc ← emit (.vararg 0 (some 0))
    advance
    return plain (.vararg pc)
  | .number n => do
    advance
    return plain (.number n)
  | .str s => do
    advance
    return plain (.str s)
  | .function b => do
    advance
    function false (← nextLine) b
  | .table fields trailing => do
    let (pc, t) ← beginTable
    endTable pc (← itemList trailing t fields)
  | .name n => do
    advance
    nameOperand n
  | .paren e => do
    advance
    let v ← expr e
    advance
    Operand.discharge v
  | .field e name => do
    let t ← Operand.toAnyOrCaptured (← expr e)
    advanceBy 2
    Operand.index t (plain (.str name))
  | .index e key => do
    let t ← Operand.toAnyOrCaptured (← expr e)
    advance
    let k ← Operand.toValue (← expr key)
    advance
    Operand.index t k
  | .call e args => do
    let f ← Operand.toNext (← expr e)
    callWith f args
  | .method e name args => do
    let o ← expr e
    advanceBy 2
    let f ← Operand.self o (plain (.str name))
    callWith f args
  | .unary op e => do
    let line ← nextLine
    advance
    Operand.unary op (← expr e) line
  | .binary op l r => do
    let a ← expr l
    let line ← nextLine
    advance
    let a ← Operand.infixStart op a
    let b ← expr r
    Operand.infixEnd op a b line
  | .malformed fault => throw fault
  | .broken e fault => do
    discard (expr e)
    throw fault

/-- Expressions separated by commas: their number, and the last of them, the
others being in registers. -/
def exprList : List Expr → Gen (Nat × Operand)
  | [] => return (0, plain .void)
  | e :: rest => do
    let v ← expr e
    if rest.isEmpty then return (1, v)
    else
      advance
      discard (Operand.toNext v)
      let (n, last) ← exprList rest
      return (n + 1, last)

/-- A call of the function in a register. -/
def callWith (f : Operand) : Arguments → Gen Operand
  | .parens es => do
    let line ← nextLine
    advance
    let (_, last) ← exprList es
    if last.isMulti then Operand.setResults last none
    advance
    finishCall f last line
  | .str s => do
    let line ← nextLine
    advance
    finishCall f (plain (.str s)) line
  | .table fields trailing => do
    let line ← nextLine
    let (pc, t) ← beginTable
    let e ← endTable pc (← itemList trailing t fields)
    finishCall f e line
  | .malformed fault => throw fault
/-- The fields of a table expression. -/
def itemList (trailing : Bool) (t : TableDraft) : List Item → Gen TableDraft
  | [] => return t
  | f :: rest => do
    let t ← closeElement t
    let t ← item t f
    if trailing || !rest.isEmpty then advance
    itemList trailing t rest

/-- A field of a table expression. -/
def item (t : TableDraft) : Item → Gen TableDraft
  | .positional e => do
    let v ← expr e
    return { t with last := v, waiting := t.waiting + 1 }
  | .named name e => do
    let free := (← draft).free
    advanceBy 2
    let place ← Operand.index (plain (.fixed t.register)) (plain (.str name))
    Operand.store place (← expr e)
    change fun d => { d with free }
    return { t with fields := t.fields + 1 }
  | .keyed key e => do
    let free := (← draft).free
    advance
    let k ← Operand.toValue (← expr key)
    advanceBy 2
    let place ← Operand.index (plain (.fixed t.register)) k
    Operand.store place (← expr e)
    change fun d => { d with free }
    return { t with fields := t.fields + 1 }

/-- A function that began on `line`, from its parameters to its end. -/
def function (isMethod : Bool) (line : Nat) : Body → Gen Operand
  | .mk params isVararg block => do
    openFunction line
    advance
    if isMethod then
      declare (ofText "self") .regular
      activate 1
    declareParams isVararg params
    activate params.length
    change fun d => { d with params := d.active }
    if isVararg then setVararg
    reserve (← draft).active
    advance
    stats 0 block
    advance
    let inner ← closeFunction
    let k := (← draft).children.size
    change fun d => { d with children := d.children.push inner }
    let pc ← emit (.closure 0 k)
    Operand.toNext (plain (.pending pc))

/-- The statements of a block, the first `skipped` left out. -/
def stats (skipped : Nat) : List Stat → Gen Unit
  | [] => return ()
  | s :: rest =>
    match skipped with
    | k + 1 => stats k rest
    | 0 => do
      stat s
      let level ← variableLevel
      change fun d => { d with free := level }
      stats 0 rest

/-- The left-hand sides of an assignment; `earlier` are those in front, the
last one first. -/
def targetList (earlier : List Operand) : List Expr → Gen (List Operand)
  | [] => return earlier
  | e :: rest => do
    let v ← expr e
    let earlier ← if isField v || earlier.isEmpty then pure earlier else avoidConflict earlier v
    checkAssignable v
    if !rest.isEmpty then advance
    targetList (v :: earlier) rest

/-- The alternatives of an `if` statement.  The answer is the jumps that lead
behind it; `more` tells of an `else` block behind the last one. -/
def clauses (more : Bool) : List Clause → Gen (List Nat)
  | [] => return []
  | .mk cond block :: rest => do
    advance
    let v ← expr cond
    advance
    let skipping ← do
      if (block.head?).any isBreak then
        let line ← nextLine
        let v ← Operand.goIfFalse v
        advance
        openScope false
        pendingJump breakName line v.whenTrue
        let blanks := (block.tail.takeWhile isEmptyStat).length
        advanceBy blanks
        if block.length == blanks + 1 then
          closeScope
          pure none
        else
          let pc ← Operand.emitJump
          stats (blanks + 1) block
          pure (some [pc])
      else
        let v ← Operand.goIfTrue v
        openScope false
        stats 0 block
        pure (some v.whenFalse)
    let leaving ← do
      match skipping with
      | none => pure []
      | some jumps =>
        closeScope
        let leaving ← do
          if more || !rest.isEmpty then
            let pc ← Operand.emitJump
            pure [pc]
          else pure []
        Operand.patchHere jumps
        pure leaving
    let others ← clauses more rest
    return leaving ++ others

/-- A statement. -/
def stat : Stat → Gen Unit
  | .empty => advance
  | .local names values => do
    advance
    declareLocals names
    match values with
    | some es =>
      advance
      let (n, last) ← exprList es
      bindLocals names n last
    | none => bindLocals names 0 (plain .void)
  | .assign targets values => do
    let places ← targetList [] targets
    advance
    let (n, last) ← exprList values
    if n == places.length then
      let last ← Operand.single last
      match places with
      | place :: rest =>
        Operand.store place last
        storeTop rest
      | [] => return ()
    else
      adjust places.length n last
      storeTop places
  | .call e => do
    let v ← expr e
    Operand.setResults v (some 0)
  | .block block => do
    advance
    openScope false
    stats 0 block
    closeScope
    advance
  | .while cond block => do
    advance
    let start ← label
    let leaving ← conditionJumps (← expr cond)
    openScope true
    advance
    openScope false
    stats 0 block
    closeScope
    Operand.patchTo [← Operand.emitJump] start
    advance
    closeScope
    Operand.patchHere leaving
  | .repeat block cond => do
    let start ← label
    openScope true
    openScope false
    advance
    stats 0 block
    advance
    let again ← conditionJumps (← expr cond)
    let inner := ((← draft).scopes.head?).any Scope.hasCaptured
    let level := levelOf (← draft) (((← draft).scopes.head?).elim 0 Scope.vars)
    closeScope
    let again ← do
      if inner then
        let leaving ← Operand.emitJump
        Operand.patchHere again
        discard (emit (.close level))
        let again ← Operand.emitJump
        Operand.patchHere [leaving]
        pure [again]
      else pure again
    Operand.patchTo again start
    closeScope
  | .ite alternatives otherwise => do
    let leaving ← clauses otherwise.isSome alternatives
    match otherwise with
    | some block =>
      advance
      openScope false
      stats 0 block
      closeScope
    | none => pure ()
    advance
    Operand.patchHere leaving
  | .numericFor name first last step block => do
    let line ← nextLine
    openScope true
    advanceBy 2
    let base := (← draft).free
    declareHidden 3
    declare name .regular
    advance
    discard (Operand.toNext (← expr first))
    advance
    discard (Operand.toNext (← expr last))
    match step with
    | some e =>
      advance
      discard (Operand.toNext (← expr e))
    | none => defaultStep
    activate 3
    let prep ← beginLoop base 1 false
    openScope false
    stats 0 block
    closeScope
    endLoop base 1 line prep false
    advance
    closeScope
  | .genericFor names values block => do
    openScope true
    advanceBy 2
    let base := (← draft).free
    declareHidden 4
    match names with
    | name :: more =>
      declare name .regular
      declareMore more
    | [] => pure ()
    advance
    let line ← nextLine
    let (n, last) ← exprList values
    adjust 4 n last
    activate 4
    markClosing
    checkRegisters 3
    let prep ← beginLoop base names.length true
    openScope false
    stats 0 block
    closeScope
    endLoop base names.length line prep true
    advance
    closeScope
  | .function name fields method b => do
    let line ← nextLine
    advanceBy 2
    let place ← namePath (← nameOperand name) (fields ++ method.toList)
    let f ← function method.isSome line b
    checkAssignable place
    Operand.store place f
    fixLine line
  | .localFunction name b => do
    advanceBy 3
    declare name .regular
    activate 1
    let note := (← draft).locals.size - 1
    let line ← nextLine
    discard (function false line b)
    change fun d =>
      { d with locals := d.locals.modify note fun l => { l with start := d.code.size } }
  | .return values semicolon => do
    advance
    let level ← variableLevel
    let (n, last) ← exprList values
    if n == 0 then discard (emit (.return level (some 0) false))
    else if last.isMulti then
      Operand.setResults last none
      let inClosing := ((← draft).scopes.head?).any Scope.inClosing
      match last.kind with
      | .call pc =>
        if n == 1 && !inClosing then
          patch pc fun i =>
            match i with
            | .call a args _ => .tailCall a args false
            | i => i
      | _ => pure ()
      discard (emit (.return level none false))
    else if n == 1 then
      let (_, r) ← Operand.anyRegister last
      discard (emit (.return r (some 1) false))
    else
      discard (Operand.toNext last)
      discard (emit (.return level (some n) false))
    if semicolon then advance
  | .break => do
    let line ← nextLine
    advance
    pendingJump breakName line [← Operand.emitJump]
  | .goto name => do
    advance
    emitGoto name
  | .label name following last => do
    let line ← nextLine
    advanceBy 3
    stats 0 following
    match ← findLabel name with
    | some l =>
      faultPlain (ofText "label " ++ quoted name ++ ofText " already defined on line "
        ++ Bytes.ofNat l.line)
    | none => discard (makeLabel name line last)
  | .malformed fault => throw fault

end

/-- A whole text. -/
def main (block : List Stat) : Gen Compiled := do
  openScope false
  change fun d =>
    { d with captures := ⟨#[⟨envName, ⟨true, 0⟩, false⟩], by simp⟩ }
  setVararg
  checkReadable
  stats 0 block
  closeFunction

end Gen

/-- The code of a text, or why it has none.  `source` is the chunk's name and
`room` the number of levels of nesting that is out of bounds. -/
def Chunk.compile (source text : Bytes) (room : Nat) : Except ChunkFault Chunk :=
  let tokens := Token.scan text
  let start : Builder := ⟨source, tokens, 0, Draft.start 0, []⟩
  match Gen.main (Tree.ofTokens tokens room) start with
  | .ok (c, _) => .ok c.code
  | .error e => .error e

end NpcDialog.Lua
