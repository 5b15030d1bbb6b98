import NpcDialog.Lua.Token.Lexer
import NpcDialog.Lua.Tree

/-!
# Reading program trees

The grammar as a reader over a token list.  Once a rule is broken the fault is
noted and the rest of the tokens is dropped; every part that is still to be
read then becomes a malformed leaf, so a tree comes out in any case.

* `Reader.State` — the tokens that are left and the first fault.
* `Reader.expr`, `Reader.block` — the two entry points of the grammar.
* `Tree.ofTokens` — the block of a whole text.
-/

namespace NpcDialog.Lua

open Bytes (ofText)

namespace Reader

/-- The tokens that are left and the first fault, if there was one. -/
structure State where
  /-- Tokens that are left. -/
  rest : List Token
  /-- The first fault. -/
  fault : Option ChunkFault

/-- A step of reading. -/
abbrev Read := StateM State

/-- What a reader knows of the place it is at. -/
structure Place where
  /-- How many levels of nesting are still allowed. -/
  room : Nat
  /-- Does the enclosing function take extra arguments? -/
  isVararg : Bool

/-- The next token. -/
def peek : Read Token := do
  match (← get).rest with
  | t :: _ => return t
  | [] => return ⟨.unreadable ByteArray.empty, ByteArray.empty, 0⟩

/-- Leaves the next token behind. -/
def skip : Read Unit := modify fun s => { s with rest := s.rest.tail }

/-- Notes a fault and drops the rest, unless there was a fault before. -/
def fail (fault : ChunkFault) : Read Unit :=
  modify fun s =>
    match s.fault with
    | some _ => s
    | none => ⟨[], some fault⟩

/-- Notes a fault that quotes the next token. -/
def failNear (message : Bytes) : Read Unit := do
  let t ← peek
  match t.kind with
  | .unreadable reason => fail (.message t.line reason)
  | _ => fail (.message t.line (message ++ t.nearSuffix))

/-- Notes a fault that quotes nothing. -/
def failPlain (message : Bytes) : Read Unit := do
  let t ← peek
  match t.kind with
  | .unreadable reason => fail (.message t.line reason)
  | _ => fail (.message t.line message)

/-- The fault that was noted. -/
def noted : Read ChunkFault := do
  return (← get).fault.getD .nesting

/-- Has a fault been noted? -/
def hasFailed : Read Bool := do
  return (← get).fault.isSome

/-- Is the token a given mark? -/
def Token.isMark (t : Token) (m : Mark) : Bool :=
  match t.kind with
  | .mark k => k == m
  | _ => false

/-- Leaves the next token behind if it is the given mark. -/
def accept (m : Mark) : Read Bool := do
  if Token.isMark (← peek) m then
    skip
    return true
  else return false

/-- Leaves the given mark behind, which has to be next. -/
def expect (m : Mark) : Read Unit := do
  if !(← accept m) then failNear (m.quotedText ++ ofText " expected")

/-- Leaves behind the mark that closes what `opening` began on `line`. -/
def expectClosing (m opening : Mark) (line : Nat) : Read Unit := do
  if !(← accept m) then
    let t ← peek
    if t.line == line then failNear (m.quotedText ++ ofText " expected")
    else
      failNear (m.quotedText ++ ofText " expected (to close " ++ opening.quotedText
        ++ ofText " at line " ++ Bytes.ofNat line ++ ofText ")")

/-- Leaves a name behind, which has to be next. -/
def expectName : Read Bytes := do
  match (← peek).kind with
  | .name n =>
    skip
    return n
  | _ =>
    failNear (ofText "<name> expected")
    return ByteArray.empty

/-- Does the token end a block?  The end of a `repeat` block counts on
request. -/
def endsBlock (withUntil : Bool) (t : Token) : Bool :=
  match t.kind with
  | .mark .kwElse | .mark .kwElseif | .mark .kwEnd | .stop | .unreadable _ => true
  | .mark .kwUntil => withUntil
  | _ => false

/-- The operator with one operand that a token stands for. -/
def unaryOperator? (t : Token) : Option UnaryOperator :=
  match t.kind with
  | .mark .kwNot => some .not
  | .mark .minus => some .negate
  | .mark .tilde => some .complement
  | .mark .hash => some .length
  | _ => none

/-- The operator with two operands that a token stands for, with its binding
strength to the left and to the right. -/
def binaryOperator? (t : Token) : Option (BinaryOperator × Nat × Nat) :=
  match t.kind with
  | .mark .plus => some (.arith .add, 10, 10)
  | .mark .minus => some (.arith .sub, 10, 10)
  | .mark .star => some (.arith .mul, 11, 11)
  | .mark .percent => some (.arith .mod, 11, 11)
  | .mark .caret => some (.arith .pow, 14, 13)
  | .mark .slash => some (.arith .div, 11, 11)
  | .mark .doubleSlash => some (.arith .idiv, 11, 11)
  | .mark .ampersand => some (.arith .band, 6, 6)
  | .mark .bar => some (.arith .bor, 4, 4)
  | .mark .tilde => some (.arith .bxor, 5, 5)
  | .mark .shiftLeft => some (.arith .shl, 7, 7)
  | .mark .shiftRight => some (.arith .shr, 7, 7)
  | .mark .doubleDot => some (.concat, 9, 8)
  | .mark .equals => some (.eq, 3, 3)
  | .mark .less => some (.lt, 3, 3)
  | .mark .atMost => some (.le, 3, 3)
  | .mark .differs => some (.ne, 3, 3)
  | .mark .greater => some (.gt, 3, 3)
  | .mark .atLeast => some (.ge, 3, 3)
  | .mark .kwAnd => some (.and, 2, 2)
  | .mark .kwOr => some (.or, 1, 1)
  | _ => none

/-- How strongly an operator with one operand binds. -/
def unaryStrength : Nat := 12

/-- A place one level deeper; the lowest level is out of bounds. -/
def deeper (p : Place) : Read Place := do
  let room := p.room - 1
  if room == 0 then fail .nesting
  return { p with room }

/-- Can the expression stand to the left of an assignment? -/
def isAssignable : Expr → Bool
  | .name _ | .field _ _ | .index _ _ | .malformed _ | .broken _ _ => true
  | _ => false

/-- Is the expression a call? -/
def isCall : Expr → Bool
  | .call _ _ | .method _ _ _ | .malformed _ | .broken _ _ => true
  | _ => false

/-- The attribute of a local variable, if one is written. -/
def localAttribute : Read Attribute := do
  if ← accept .less then
    let name ← expectName
    expect .greater
    if name == ofText "const" then return .const
    else if name == ofText "close" then return .close
    else
      failPlain (ofText "unknown attribute " ++ quoted name)
      return .regular
  else return .regular

/-- The names of a `local` statement with their attributes; `closing` tells
whether one of the earlier ones is to be closed. -/
def localNames : Nat → Bool → Read (List (Bytes × Attribute))
  | 0, _ => do
    fail .nesting
    return []
  | n + 1, closing => do
    let name ← expectName
    let a ← localAttribute
    if a == .close && closing then
      failPlain (ofText "multiple to-be-closed variables in local list")
    if ← accept .comma then
      let rest ← localNames n (closing || a == .close)
      return (name, a) :: rest
    else return [(name, a)]

/-- A list of names separated by commas. -/
def nameList : Nat → Read (List Bytes)
  | 0 => do
    fail .nesting
    return []
  | n + 1 => do
    let name ← expectName
    if ← accept .comma then
      let rest ← nameList n
      return name :: rest
    else return [name]

/-- The parameters of a function up to the closing parenthesis, and whether
extra arguments are taken. -/
def parameters : Nat → Read (List Bytes × Bool)
  | 0 => do
    fail .nesting
    return ([], false)
  | n + 1 => do
    match (← peek).kind with
    | .name name =>
      skip
      if ← accept .comma then
        let (rest, isVararg) ← parameters n
        return (name :: rest, isVararg)
      else return ([name], false)
    | .mark .ellipsis =>
      skip
      return ([], true)
    | _ =>
      failNear (ofText "<name> or '...' expected")
      return ([], false)

/-- The fields in a function's name, each behind a point. -/
def dottedFields : Nat → Read (List Bytes)
  | 0 => return []
  | n + 1 => do
    if ← accept .dot then
      let name ← expectName
      let rest ← dottedFields n
      return name :: rest
    else return []

mutual

/-- An expression with operators that bind more strongly than `limit`. -/
def operation : Nat → Place → Nat → Read Expr
  | 0, _, _ => do
    fail .nesting
    return .malformed (← noted)
  | n + 1, p, limit => do
    let p ← deeper p
    let e ←
      match unaryOperator? (← peek) with
      | some op => do
        skip
        let e ← operation n p unaryStrength
        pure (Expr.unary op e)
      | none => simple n p
    operationTail n p limit e

/-- The operators behind an operand. -/
def operationTail : Nat → Place → Nat → Expr → Read Expr
  | 0, _, _, e => return e
  | n + 1, p, limit, e => do
    match binaryOperator? (← peek) with
    | some (op, left, right) =>
      if limit < left then
        skip
        let r ← operation n p right
        operationTail n p limit (.binary op e r)
      else return e
    | none => return e

/-- A whole expression. -/
def expr : Nat → Place → Read Expr
  | 0, _ => do
    fail .nesting
    return .malformed (← noted)
  | n + 1, p => do
    if ← hasFailed then return .malformed (← noted)
    let e ← operation n p 0
    if ← hasFailed then return .broken e (← noted)
    return e

/-- Expressions separated by commas. -/
def exprs : Nat → Place → Read (List Expr)
  | 0, _ => do
    fail .nesting
    return [.malformed (← noted)]
  | n + 1, p => do
    let e ← expr n p
    if ← accept .comma then
      let rest ← exprs n p
      return e :: rest
    else return [e]

/-- An operand. -/
def simple : Nat → Place → Read Expr
  | 0, _ => do
    fail .nesting
    return .malformed (← noted)
  | n + 1, p => do
    match (← peek).kind with
    | .number x =>
      skip
      return .number x
    | .str s =>
      skip
      return .str s
    | .mark .kwNil =>
      skip
      return .nil
    | .mark .kwTrue =>
      skip
      return .true
    | .mark .kwFalse =>
      skip
      return .false
    | .mark .ellipsis =>
      if p.isVararg then
        skip
        return .vararg
      else
        failNear (ofText "cannot use '...' outside a vararg function")
        return .malformed (← noted)
    | .mark .openBrace =>
      let (fields, trailing) ← table n p
      return .table fields trailing
    | .mark .kwFunction =>
      skip
      return .function (← body n p (← peek).line)
    | _ => suffixed n p

/-- A variable or an expression in parentheses, with what is applied to it. -/
def suffixed : Nat → Place → Read Expr
  | 0, _ => do
    fail .nesting
    return .malformed (← noted)
  | n + 1, p => do
    let t ← peek
    match t.kind with
    | .name name =>
      skip
      suffixes n p (.name name)
    | .mark .openParen =>
      skip
      let e ← expr n p
      expectClosing .closeParen .openParen t.line
      suffixes n p (.paren e)
    | _ =>
      failNear (ofText "unexpected symbol")
      return .malformed (← noted)

/-- Fields, calls and methods behind an expression. -/
def suffixes : Nat → Place → Expr → Read Expr
  | 0, _, e => return e
  | n + 1, p, e => do
    match (← peek).kind with
    | .mark .dot =>
      skip
      let name ← expectName
      suffixes n p (.field e name)
    | .mark .openBracket =>
      skip
      let key ← expr n p
      expect .closeBracket
      suffixes n p (.index e key)
    | .mark .colon =>
      skip
      let name ← expectName
      let args ← arguments n p
      suffixes n p (.method e name args)
    | .mark .openParen | .str _ | .mark .openBrace =>
      let args ← arguments n p
      suffixes n p (.call e args)
    | _ => return e

/-- The arguments of a call. -/
def arguments : Nat → Place → Read Arguments
  | 0, _ => do
    fail .nesting
    return .malformed (← noted)
  | n + 1, p => do
    let t ← peek
    match t.kind with
    | .mark .openParen =>
      skip
      if ← accept .closeParen then return .parens []
      else
        let es ← exprs n p
        expectClosing .closeParen .openParen t.line
        return .parens es
    | .str s =>
      skip
      return .str s
    | .mark .openBrace =>
      let (fields, trailing) ← table n p
      return .table fields trailing
    | _ =>
      failNear (ofText "function arguments expected")
      return .malformed (← noted)

/-- A table expression. -/
def table : Nat → Place → Read (List Item × Bool)
  | 0, _ => do
    fail .nesting
    return ([], false)
  | n + 1, p => do
    let line := (← peek).line
    skip
    let r ← items n p
    expectClosing .closeBrace .openBrace line
    return r

/-- The fields of a table, and whether a separator follows the last one. -/
def items : Nat → Place → Read (List Item × Bool)
  | 0, _ => do
    fail .nesting
    return ([.positional (.malformed (← noted))], false)
  | n + 1, p => do
    if Token.isMark (← peek) .closeBrace then return ([], false)
    let field ← item n p
    let separated ← do
      if ← accept .comma then pure true else accept .semicolon
    if separated then
      let (rest, trailing) ← items n p
      return (field :: rest, trailing || rest.isEmpty)
    else return ([field], false)

/-- One field of a table. -/
def item : Nat → Place → Read Item
  | 0, _ => do
    fail .nesting
    return .positional (.malformed (← noted))
  | n + 1, p => do
    match (← get).rest with
    | ⟨.name name, _, _⟩ :: ⟨.mark .assign, _, _⟩ :: rest =>
      modify fun s => { s with rest }
      return .named name (← expr n p)
    | ⟨.mark .openBracket, _, _⟩ :: rest =>
      modify fun s => { s with rest }
      let key ← expr n p
      expect .closeBracket
      expect .assign
      return .keyed key (← expr n p)
    | _ => return .positional (← expr n p)

/-- A function from its parameters to its `end`; `line` is where it began. -/
def body : Nat → Place → Nat → Read Body
  | 0, _, _ => do
    fail .nesting
    return .mk [] false [.malformed (← noted)]
  | n + 1, p, line => do
    expect .openParen
    let (params, isVararg) ← do
      if Token.isMark (← peek) .closeParen then pure ([], false) else parameters n
    expect .closeParen
    let stats ← block n { p with isVararg }
    expectClosing .kwEnd .kwFunction line
    return .mk params isVararg stats

/-- The statements of a block. -/
def block : Nat → Place → Read (List Stat)
  | 0, _ => do
    fail .nesting
    return [.malformed (← noted)]
  | n + 1, p => do
    if ← hasFailed then return [.malformed (← noted)]
    let t ← peek
    match t.kind with
    | .unreadable reason =>
      fail (.message t.line reason)
      return [.malformed (← noted)]
    | _ =>
      if endsBlock true t then return []
      else
        let s ← statement n p
        if Token.isMark t .kwReturn then
          if ← hasFailed then return [s, .malformed (← noted)]
          return [s]
        else
          let rest ← block n p
          return s :: rest

/-- A statement. -/
def statement : Nat → Place → Read Stat
  | 0, _ => do
    fail .nesting
    return .malformed (← noted)
  | n + 1, p => do
    let p ← deeper p
    let t ← peek
    match t.kind with
    | .mark .semicolon =>
      skip
      return .empty
    | .mark .kwIf =>
      skip
      let (clauses, otherwise) ← alternatives n p
      expectClosing .kwEnd .kwIf t.line
      return .ite clauses otherwise
    | .mark .kwWhile =>
      skip
      let cond ← expr n p
      expect .kwDo
      let stats ← block n p
      expectClosing .kwEnd .kwWhile t.line
      return .while cond stats
    | .mark .kwDo =>
      skip
      let stats ← block n p
      expectClosing .kwEnd .kwDo t.line
      return .block stats
    | .mark .kwFor =>
      skip
      let name ← expectName
      if ← accept .assign then
        let first ← expr n p
        expect .comma
        let last ← expr n p
        let step ← do
          if ← accept .comma then pure (some (← expr n p)) else pure none
        expect .kwDo
        let stats ← block n p
        expectClosing .kwEnd .kwFor t.line
        return .numericFor name first last step stats
      else if Token.isMark (← peek) .comma || Token.isMark (← peek) .kwIn then
        let more ← do
          if ← accept .comma then nameList n else pure []
        expect .kwIn
        let values ← exprs n p
        expect .kwDo
        let stats ← block n p
        expectClosing .kwEnd .kwFor t.line
        return .genericFor (name :: more) values stats
      else
        failNear (ofText "'=' or 'in' expected")
        return .malformed (← noted)
    | .mark .kwRepeat =>
      skip
      let stats ← block n p
      expectClosing .kwUntil .kwRepeat t.line
      let cond ← expr n p
      return .repeat stats cond
    | .mark .kwFunction =>
      skip
      let name ← expectName
      let fields ← dottedFields n
      let method ← do
        if ← accept .colon then pure (some (← expectName)) else pure none
      let f ← body n p t.line
      return .function name fields method f
    | .mark .kwLocal =>
      skip
      if ← accept .kwFunction then
        let name ← expectName
        let f ← body n p (← peek).line
        return .localFunction name f
      else
        let names ← localNames n false
        if ← hasFailed then return .malformed (← noted)
        if ← accept .assign then
          let values ← exprs n p
          return .local names (some values)
        else return .local names none
    | .mark .doubleColon =>
      skip
      let name ← expectName
      expect .doubleColon
      if ← hasFailed then return .malformed (← noted)
      let following ← voidStatements n p
      return .label name following (endsBlock false (← peek))
    | .mark .kwReturn =>
      skip
      let next ← peek
      let values ← do
        if (endsBlock true next && !(← hasFailed)) || Token.isMark next .semicolon then pure []
        else exprs n p
      let semicolon ← accept .semicolon
      return .return values semicolon
    | .mark .kwBreak =>
      skip
      return .break
    | .mark .kwGoto =>
      skip
      return .goto (← expectName)
    | _ =>
      let e ← suffixed n p
      let next ← peek
      if Token.isMark next .assign || Token.isMark next .comma then
        let targets ← targetsFrom n p e
        let values ← exprs n p
        return .assign targets values
      else if isCall e then return .call e
      else
        failNear (ofText "syntax error")
        return .malformed (← noted)

/-- The left-hand sides of an assignment, the first of which has been read, and
the `=` behind them. -/
def targetsFrom : Nat → Place → Expr → Read (List Expr)
  | 0, _, _ => do
    fail .nesting
    return [.malformed (← noted)]
  | n + 1, p, e => do
    if !isAssignable e then
      failNear (ofText "syntax error")
      return [.broken e (← noted)]
    else if ← accept .comma then
      let next ← suffixed n p
      let p ← deeper p
      let rest ← targetsFrom n p next
      return e :: rest
    else
      expect .assign
      if ← hasFailed then return [.broken e (← noted)]
      return [e]

/-- The alternatives of an `if` behind that word. -/
def alternatives : Nat → Place → Read (List Clause × Option (List Stat))
  | 0, _ => do
    fail .nesting
    return ([.mk (.malformed (← noted)) []], none)
  | n + 1, p => do
    let cond ← expr n p
    expect .kwThen
    let stats ← block n p
    if ← accept .kwElseif then
      let (rest, otherwise) ← alternatives n p
      return (.mk cond stats :: rest, otherwise)
    else if ← accept .kwElse then
      let last ← block n p
      return ([.mk cond stats], some last)
    else return ([.mk cond stats], none)

/-- The empty statements and labels right behind a label. -/
def voidStatements : Nat → Place → Read (List Stat)
  | 0, _ => return []
  | n + 1, p => do
    let t ← peek
    if Token.isMark t .semicolon || Token.isMark t .doubleColon then
      let s ← statement n p
      let rest ← voidStatements n p
      return s :: rest
    else if ← hasFailed then return [.malformed (← noted)]
    else return []

end

/-- A whole text: a block that takes extra arguments, up to the end. -/
def program (n room : Nat) : Read (List Stat) := do
  let stats ← block n ⟨room, true⟩
  let t ← peek
  match t.kind with
  | .stop => return stats
  | _ =>
    if ← hasFailed then return stats
    failNear (ofText "<eof> expected")
    return stats ++ [.malformed (← noted)]

end Reader

/-- The block a token list stands for.  `room` is the number of levels of
nesting that is out of bounds. -/
def Tree.ofTokens (tokens : Array Token) (room : Nat) : List Stat :=
  (Reader.program (16 * tokens.size + 64) room ⟨tokens.toList, none⟩).1

end NpcDialog.Lua
