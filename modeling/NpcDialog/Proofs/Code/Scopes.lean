import NpcDialog.Lua.Code.Compiler

/-!
# Scopes

What the names of a program tree refer to, by the tree alone: which names are free in
its parts, which variables are in scope at each function, and which of those are only
names for constants.

* `Forecast` — what is known of a value before the program runs.
* `Expr.free`, `Stat.free`, `Body.free` — the names that are not bound where they are
  used, in the order of the text.
* `Site` — a place where a function is written, with the variables that are in scope.
* `Expr.sites`, `Stat.sites` — the functions that are written in a part of a program.
* `Site.capturedNames` — the variables around a function that it refers to.
-/

namespace NpcDialog.Lua

open Bytes (ofText)

/-! ## Constants -/

/-- A value that an expression stands for. -/
inductive Literal where
  /-- The value of absence. -/
  | nil
  /-- A truth value. -/
  | bool (b : Bool)
  /-- A number. -/
  | number (n : Number)
  /-- A string. -/
  | str (s : Bytes)

namespace Literal

/-- Does the value count as true? -/
def isTrue : Literal → Bool
  | .nil => false
  | .bool b => b
  | _ => true

/-- Does the value count as false? -/
def isFalse (l : Literal) : Bool := !l.isTrue

/-- The number that the value is. -/
def number? : Literal → Option Number
  | .number n => some n
  | _ => none

/-- The value as a constant. -/
def const : Literal → Const
  | .nil => .nil
  | .bool b => .bool b
  | .number n => .ofNumber n
  | .str s => .str s

/-- The value of a constant. -/
def ofConst : Const → Literal
  | .nil => .nil
  | .bool b => .bool b
  | .int n => .number (.int n)
  | .float bits => .number (.float (Float.ofBits bits))
  | .str s => .str s

end Literal

/-- What is known of a value before the program runs: the value, unless the evaluation
ends earlier, as that of a conjunction or a disjunction may. -/
structure Forecast where
  /-- The value at the end of the evaluation, if it is known. -/
  value : Option Literal
  /-- May the evaluation end earlier with a true value? -/
  endsTrue : Bool
  /-- May the evaluation end earlier with a false value? -/
  endsFalse : Bool

namespace Forecast

/-- Nothing is known. -/
def unknown : Forecast := ⟨none, false, false⟩

/-- The value is known. -/
def sure (l : Literal) : Forecast := ⟨some l, false, false⟩

/-- The value that an evaluation has in any case. -/
def literal? (f : Forecast) : Option Literal := if f.endsTrue || f.endsFalse then none else f.value

/-- The number that a value is in any case. -/
def number? (f : Forecast) : Option Number := f.literal?.bind Literal.number?

/-- The logical negation. -/
def negation (f : Forecast) : Forecast := ⟨f.value.map fun l => .bool !l.isTrue, f.endsFalse, f.endsTrue⟩

/-- The conjunction: the second operand, unless the first one is false. -/
def and (f g : Forecast) : Forecast :=
  ⟨g.value, g.endsTrue, f.endsFalse || !f.value.any Literal.isTrue || g.endsFalse⟩

/-- The disjunction: the second operand, unless the first one is true. -/
def or (f g : Forecast) : Forecast :=
  ⟨g.value, f.endsTrue || !f.value.any Literal.isFalse || g.endsTrue, g.endsFalse⟩

/-- A number, if it could be worked out. -/
def ofNumber? (n : Option Number) : Forecast := n.elim unknown fun n => sure (.number n)

/-- An operator applied to one operand. -/
def unary (op : UnaryOperator) (f : Forecast) : Forecast :=
  match op with
  | .not => f.negation
  | _ => ofNumber? (f.number?.bind (Operand.foldUnary? op))

/-- An operator applied to two operands. -/
def binary (op : BinaryOperator) (f g : Forecast) : Forecast :=
  match op with
  | .and => f.and g
  | .or => f.or g
  | .arith op => ofNumber? (f.number?.bind fun a => g.number?.bind fun b => Operand.fold? op a b)
  | _ => unknown

end Forecast

/-! ## Variables in scope -/

/-- A variable in scope. -/
structure Binding where
  /-- Its name. -/
  name : Bytes
  /-- The constant that it is a name for, if it is no more than that. -/
  constant : Option Const

/-- A variable that holds a value. -/
def Binding.variable (name : Bytes) : Binding := ⟨name, none⟩

/-- The variables in scope, the innermost first. -/
abbrev Bindings := List Binding

namespace Bindings

/-- The variable that a name stands for. -/
def named (Γ : Bindings) (name : Bytes) : Option Binding := Γ.find? fun v => v.name == name

/-- Does a name stand for a variable that holds a value? -/
def holds (Γ : Bindings) (name : Bytes) : Bool := (Γ.named name).any fun v => v.constant.isNone

/-- The constant that a name stands for. -/
def constant? (Γ : Bindings) (name : Bytes) : Option Const := (Γ.named name).bind Binding.constant

/-- What is in scope around a whole text: the variable that holds the environment. -/
def outermost : Bindings := [.variable envName.bytes]

/-- The hidden variables of a loop. -/
def hidden (n : Nat) : Bindings := List.replicate n (.variable Gen.loopVariable)

/-- Variables that are declared one after the other. -/
def declared (names : List Bytes) : Bindings := (names.map Binding.variable).reverse

end Bindings

/-- The name that is looked for.  A name ends in front of a zero byte; that of a
program has none. -/
def reference (name : Bytes) : Bytes := (Name.ofBytes name).bytes

/-- What is known of the value of an expression. -/
def Expr.forecast (Γ : Bindings) : Expr → Forecast
  | .nil => .sure .nil
  | .true => .sure (.bool Bool.true)
  | .false => .sure (.bool Bool.false)
  | .number n => .sure (.number n)
  | .str s => .sure (.str s)
  | .name n => (Γ.constant? (reference n)).elim .unknown fun c => .sure (.ofConst c)
  | .paren e => e.forecast Γ
  | .unary op e => (e.forecast Γ).unary op
  | .binary op l r => (l.forecast Γ).binary op (r.forecast Γ)
  | _ => .unknown

/-- The constant that an expression stands for. -/
def Expr.constant? (Γ : Bindings) : Expr → Option Const
  | .name n => Γ.constant? (reference n)
  | e => (e.forecast Γ).literal?.map Literal.const

/-- The constant that the last variable of a `local` statement is a name for: the last
value, if it is one and nothing is left over. -/
def localConstant (Γ : Bindings) (names : List (Bytes × Attribute)) (values : List Expr) : Option Const :=
  match names.getLast? with
  | some (_, .const) =>
    if names.length == values.length then values.getLast?.bind (Expr.constant? Γ) else none
  | _ => none

/-- The variables of a `local` statement, if the last one is a name for a constant. -/
def localVariables (names : List (Bytes × Attribute)) (constant : Option Const) : Bindings :=
  match names.reverse with
  | [] => []
  | (last, _) :: others => ⟨last, constant⟩ :: others.map fun p => .variable p.1

mutual

/-- The variables that a statement adds to those in scope. -/
def Stat.bindings (Γ : Bindings) : Stat → Bindings
  | .local names values => localVariables names (localConstant Γ names (values.getD []))
  | .localFunction name _ => [.variable name]
  | .label _ following _ => blockBindings Γ following
  | _ => []

/-- The variables that statements add to those in scope. -/
def blockBindings (Γ : Bindings) : List Stat → Bindings
  | [] => []
  | s :: rest => blockBindings (s.bindings Γ ++ Γ) rest ++ s.bindings Γ

end

/-- The names of the variables that a statement adds to those in scope. -/
def Stat.binds (s : Stat) : List Bytes := (s.bindings []).map Binding.name

/-- Names without those that are bound. -/
def unbound (bound names : List Bytes) : List Bytes := names.filter fun n => !bound.contains n

/-- The parameter that a method has in front of those that are written. -/
def receiver (isMethod : Bool) : List Bytes := if isMethod then [ofText "self"] else []

/-! ## Free names -/

mutual

/-- The names that an expression refers to and does not bind. -/
def Expr.free : Expr → List Bytes
  | .function b => b.free false
  | .table items _ => itemsFree items
  | .name n => [reference n]
  | .paren e => e.free
  | .field e _ => e.free
  | .index e key => e.free ++ key.free
  | .call e args => e.free ++ args.free
  | .method e _ args => e.free ++ args.free
  | .unary _ e => e.free
  | .binary _ l r => l.free ++ r.free
  | .broken e _ => e.free
  | _ => []

/-- The names that expressions refer to. -/
def exprsFree : List Expr → List Bytes
  | [] => []
  | e :: rest => e.free ++ exprsFree rest

/-- The names that arguments refer to. -/
def Arguments.free : Arguments → List Bytes
  | .parens es => exprsFree es
  | .table items _ => itemsFree items
  | _ => []

/-- The names that a field of a table refers to. -/
def Item.free : Item → List Bytes
  | .positional e => e.free
  | .named _ e => e.free
  | .keyed key e => key.free ++ e.free

/-- The names that the fields of a table refer to. -/
def itemsFree : List Item → List Bytes
  | [] => []
  | f :: rest => f.free ++ itemsFree rest

/-- The names that a function refers to and does not bind.  A method binds the name of
its object. -/
def Body.free (isMethod : Bool) : Body → List Bytes
  | .mk params _ block => unbound (receiver isMethod ++ params) (blockFree block [])

/-- The names that a statement refers to and does not bind. -/
def Stat.free : Stat → List Bytes
  | .local _ values =>
    match values with
    | some es => exprsFree es
    | none => []
  | .assign targets values => exprsFree targets ++ exprsFree values
  | .call e => e.free
  | .block block => blockFree block []
  | .while cond block => cond.free ++ blockFree block []
  | .repeat block cond => blockFree block cond.free
  | .ite alternatives otherwise =>
    clausesFree alternatives ++
      match otherwise with
      | some block => blockFree block []
      | none => []
  | .numericFor name first last step block =>
    first.free ++ last.free ++
      (match step with
        | some e => e.free
        | none => []) ++
      unbound [Gen.loopVariable, name] (blockFree block [])
  | .genericFor names values block =>
    exprsFree values ++ unbound (Gen.loopVariable :: names) (blockFree block [])
  | .function name _ method b => reference name :: b.free method.isSome
  | .localFunction name b => unbound [name] (b.free false)
  | .return values _ => exprsFree values
  | .label _ following _ => blockFree following []
  | _ => []

/-- The names that statements refer to and do not bind; `tail` are those that are
referred to behind them, in the scope of their variables. -/
def blockFree : List Stat → List Bytes → List Bytes
  | [], tail => tail
  | s :: rest, tail => s.free ++ unbound s.binds (blockFree rest tail)

/-- The names that an alternative refers to. -/
def Clause.free : Clause → List Bytes
  | .mk cond block => cond.free ++ blockFree block []

/-- The names that alternatives refer to. -/
def clausesFree : List Clause → List Bytes
  | [] => []
  | c :: rest => c.free ++ clausesFree rest

end

/-! ## Where functions are written -/

/-- A place where a function is written. -/
structure Site where
  /-- The variables in scope, the innermost first, and those of all functions around. -/
  around : Bindings
  /-- Is the function a method? -/
  isMethod : Bool
  /-- The function. -/
  body : Body

mutual

/-- The functions that are written in an expression, but not in another function. -/
def Expr.sites (Γ : Bindings) : Expr → List Site
  | .function b => [⟨Γ, false, b⟩]
  | .table items _ => itemsSites Γ items
  | .paren e => e.sites Γ
  | .field e _ => e.sites Γ
  | .index e key => e.sites Γ ++ key.sites Γ
  | .call e args => e.sites Γ ++ args.sites Γ
  | .method e _ args => e.sites Γ ++ args.sites Γ
  | .unary _ e => e.sites Γ
  | .binary _ l r => l.sites Γ ++ r.sites Γ
  | .broken e _ => e.sites Γ
  | _ => []

/-- The functions that are written in expressions. -/
def exprsSites (Γ : Bindings) : List Expr → List Site
  | [] => []
  | e :: rest => e.sites Γ ++ exprsSites Γ rest

/-- The functions that are written in arguments. -/
def Arguments.sites (Γ : Bindings) : Arguments → List Site
  | .parens es => exprsSites Γ es
  | .table items _ => itemsSites Γ items
  | _ => []

/-- The functions that are written in a field of a table. -/
def Item.sites (Γ : Bindings) : Item → List Site
  | .positional e => e.sites Γ
  | .named _ e => e.sites Γ
  | .keyed key e => key.sites Γ ++ e.sites Γ

/-- The functions that are written in the fields of a table. -/
def itemsSites (Γ : Bindings) : List Item → List Site
  | [] => []
  | f :: rest => f.sites Γ ++ itemsSites Γ rest

end

mutual

/-- The functions that are written in a statement, but not in another function. -/
def Stat.sites (Γ : Bindings) : Stat → List Site
  | .local _ values =>
    match values with
    | some es => exprsSites Γ es
    | none => []
  | .assign targets values => exprsSites Γ targets ++ exprsSites Γ values
  | .call e => e.sites Γ
  | .block block => blockSites Γ block
  | .while cond block => cond.sites Γ ++ blockSites Γ block
  | .repeat block cond => blockSites Γ block ++ cond.sites (blockBindings Γ block ++ Γ)
  | .ite alternatives otherwise =>
    clausesSites Γ alternatives ++
      match otherwise with
      | some block => blockSites Γ block
      | none => []
  | .numericFor name first last step block =>
    first.sites Γ ++ last.sites Γ ++
      (match step with
        | some e => e.sites Γ
        | none => []) ++
      blockSites (.variable name :: (Bindings.hidden 3 ++ Γ)) block
  | .genericFor names values block =>
    exprsSites Γ values ++ blockSites (Bindings.declared names ++ (Bindings.hidden 4 ++ Γ)) block
  | .function _ _ method b => [⟨Γ, method.isSome, b⟩]
  | .localFunction name b => [⟨.variable name :: Γ, false, b⟩]
  | .return values _ => exprsSites Γ values
  | .label _ following _ => blockSites Γ following
  | _ => []

/-- The functions that are written in statements. -/
def blockSites (Γ : Bindings) : List Stat → List Site
  | [] => []
  | s :: rest => s.sites Γ ++ blockSites (s.bindings Γ ++ Γ) rest

/-- The functions that are written in an alternative. -/
def Clause.sites (Γ : Bindings) : Clause → List Site
  | .mk cond block => cond.sites Γ ++ blockSites Γ block

/-- The functions that are written in alternatives. -/
def clausesSites (Γ : Bindings) : List Clause → List Site
  | [] => []
  | c :: rest => c.sites Γ ++ clausesSites Γ rest

end

namespace Site

/-- The names of the parameters. -/
def params (s : Site) : List Bytes :=
  match s.body with
  | .mk params _ _ => receiver s.isMethod ++ params

/-- The statements of the function. -/
def block (s : Site) : List Stat :=
  match s.body with
  | .mk _ _ block => block

/-- The functions that are written in the function, but not in another one inside. -/
def inner (s : Site) : List Site := blockSites (Bindings.declared s.params ++ s.around) s.block

/-- The variables around the function that it or a function inside refers to, each once
and in the order of the text.  Names for constants are left out, and so are variables
that are called like the environment. -/
def capturedNames (s : Site) : List Bytes :=
  ((s.body.free s.isMethod).filter fun n => s.around.holds n && n != envName.bytes).eraseDups

end Site

/-- Is a function written at a site, if a whole function is written at another?  The
functions inside one are counted in the order of the text. -/
inductive StandsAt (whole : FunctionCode) (top : Site) : FunctionCode → Site → Prop where
  /-- It is the whole function. -/
  | whole : StandsAt whole top whole top
  /-- It is the function inside another with the same number as the site. -/
  | inner {f g : FunctionCode} {s t : Site} {i : Nat} (outer : StandsAt whole top f s)
      (child : f.children[i]? = some g) (site : s.inner[i]? = some t) : StandsAt whole top g t

/-- The site of a whole text. -/
def topSite (block : List Stat) : Site := ⟨.outermost, false, .mk [] true block⟩

end NpcDialog.Lua
