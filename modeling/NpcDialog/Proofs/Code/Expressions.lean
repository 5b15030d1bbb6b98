import NpcDialog.Proofs.Code.Blocks

/-!
# Walks over expressions

The walk over each kind of expression does what the tree tells of it, if the walks over
its parts do.

* `Gen.ExprWalks`, `Gen.StatWalks` and others — what the walk over a part of a program
  does.
* `Gen.shapes_bindLocals` — the end of a `local` statement.
* `Gen.walks_nil` and others — the kinds of expressions.
-/

namespace NpcDialog.Lua

open Bytes (ofText)

mutual

/-- The names that a statement binds do not depend on what is in scope. -/
theorem Stat.binds_eq (Γ : Bindings) : ∀ s : Stat, (s.bindings Γ).map Binding.name = s.binds
  | .local names values => by
    simp only [Stat.binds, Stat.bindings]
    unfold localVariables
    cases names.reverse with
    | nil => rfl
    | cons n others => simp
  | .localFunction name body => rfl
  | .label name following last => by
    simp only [Stat.binds, Stat.bindings]
    rw [blockBindings_names Γ following, blockBindings_names [] following]
  | .empty | .assign .. | .call _ | .block _ | .while .. | .repeat .. | .ite .. | .numericFor .. | .genericFor ..
  | .function .. | .return .. | .break | .goto _ | .malformed _ => by simp [Stat.binds, Stat.bindings]

/-- The same for a block. -/
theorem blockBindings_names (Γ : Bindings) : ∀ block : List Stat,
    (blockBindings Γ block).map Binding.name = (block.map Stat.binds).reverse.flatten
  | [] => rfl
  | s :: rest => by
    rw [blockBindings, List.map_append, blockBindings_names _ rest, Stat.binds_eq Γ s]
    simp

end

namespace Shape

variable {p : Shape}

/-- Behind a statement the names that it binds do not go past the function. -/
theorem Full.past_extend_binds (full : p.Full) (Γ : Bindings) (s : Stat) (l : List Bytes) :
    (p.extend (s.bindings Γ)).past l = p.past (unbound s.binds l) :=
  past_unbound s.binds l full fun n => by rw [Stat.binds_eq]

/-- The names of the condition behind the block of a `repeat` loop are those that the
block does not bind. -/
theorem past_tail (full : p.Full) (Γ : Bindings) (block : List Stat) (tail : List Bytes) :
    p.past (blockFree block tail) =
      p.past (blockFree block []) ++ (p.extend (blockBindings Γ block)).past tail := by
  induction block generalizing p Γ with
  | nil =>
    rw [blockFree, blockFree, blockBindings, extend_nil]
    rfl
  | cons s rest ih =>
    rw [blockFree, blockFree, past_append, past_append, ← full.past_extend_binds Γ,
      ← full.past_extend_binds Γ,
      ih full.extend (s.bindings Γ ++ Γ), blockBindings, extend_extend, List.append_assoc]

end Shape

namespace Gen

variable {α β : Type}

/-- What is known of a value that was read says all that the tree tells. -/
theorem result_of_meets {Γ : Bindings} {e : Expr} {v : Operand} (meets : v.Meets (e.forecast Γ))
    (other : ∀ n, e ≠ .name n) : Result Γ e v := by
  refine ⟨meets.foretold, meets.const?.trans ?_⟩
  cases e <;> first | rfl | exact absurd rfl (other _)

/-- What is known of the last of several expressions. -/
def Listed (Γ : Bindings) (es : List Expr) (r : Nat × Operand) : Prop :=
  r.1 = es.length ∧ (es = [] → r.2 = Operand.plain .void) ∧ ∀ e, es.getLast? = some e →
    r.2.const? = e.constant? Γ

/-- The constant that the last of several variables is a name for, by the operand of the last value. -/
def declaredConstant (names : List (Bytes × Attribute)) (count : Nat) (last : Operand) :
    Option Const :=
  match names.getLast? with
  | some (_, .const) => if names.length == count then last.const? else none
  | _ => none

/-- The last of several variables is a name for a constant just where the tree says so.
-/
theorem declaredConstant_listed {Γ : Bindings} {es : List Expr} {r : Nat × Operand}
    (names : List (Bytes × Attribute))
    (listed : Listed Γ es r) : declaredConstant names r.1 r.2 = localConstant Γ names es := by
  obtain ⟨count, none_, last⟩ := listed
  unfold declaredConstant localConstant
  rw [count]
  cases es.eq_nil_or_concat with
  | inl empty =>
    subst empty
    rw [none_ rfl]
    rfl
  | inr some_ =>
    obtain ⟨front, e, rfl⟩ : ∃ front e, es = front ++ [e] := by simpa using some_
    have known : (front ++ [e]).getLast?.bind (Expr.constant? Γ) = e.constant? Γ := by simp
    rcases names.getLast? with _ | ⟨n, a⟩
    · rfl
    · cases a with
      | const =>
        show (if _ then r.2.const? else none) =
          if _ then (front ++ [e]).getLast?.bind (Expr.constant? Γ) else none
        rw [last e (by simp), known]
      | _ => rfl

/-- Whether there is such a constant decides how the variables are bound. -/
theorem bindLocals_eq (names : List (Bytes × Attribute)) (count : Nat) (last : Operand) :
    bindLocals names count last = (do
      let d ← draft
      match declaredConstant names count last with
      | some c =>
        change fun d =>
          { d with vars := d.vars.modify (d.vars.size - 1) fun v =>
            { v with kind := .compileTime c } }
        activate (names.length - 1)
        change fun d => { d with active := d.active + 1 }
      | none =>
        adjust names.length count last
        activate names.length
      if names.any fun p => p.2 == .close then
        markClosing
        discard (emit (.markClose (levelOf (← draft) (d.active + (names.takeWhile fun p =>
          p.2 != .close).length))))) :=
  rfl

/-- The last declared variable becomes another one. -/
theorem shape_markLast {p : Shape} {d : Draft} {L : List Binding} {n : Bytes} {c : Const}
    (shape : d.shape = p.pend (L ++ [.variable n])) :
    ({ d with vars := d.vars.modify (d.vars.size - 1) fun v => { v with kind := .compileTime c } } : Draft).shape =
      (p.pend L).pend [⟨n, some c⟩] := by
  have vars : d.vars.toList.map Variable.binding = p.declared ++ L ++ [.variable n] := by
    rw [List.append_assoc]
    exact congrArg Shape.declared shape
  have active : d.active = p.active := congrArg Shape.active shape
  have scopes : d.scopes.map Scope.vars = p.scopes := congrArg Shape.scopes shape
  have size : d.vars.size = (p.declared ++ L).length + 1 := by
    have total := congrArg List.length vars
    simp only [List.length_map, Array.length_toList, List.length_append, List.length_cons,
      List.length_nil] at total
    rw [total, List.length_append]
  simp only [Draft.shape, Shape.pend, active, scopes, Shape.mk.injEq, and_true]
  apply List.ext_getElem?
  intro k
  have before : (d.vars.toList.map Variable.binding)[k]? = (p.declared ++ L ++ [.variable n])[k]? :=
    by rw [vars]
  simp only [List.getElem?_map, Array.getElem?_toList, Array.getElem?_modify] at before ⊢
  by_cases last : d.vars.size - 1 = k
  · have at_ : k = (p.declared ++ L).length := by omega
    rw [if_pos last]
    rw [at_, List.getElem?_concat_length] at before ⊢
    obtain ⟨v, there, same⟩ := Option.map_eq_some_iff.1 before
    have called : v.name = n := congrArg Binding.name same
    rw [there]
    simp [Variable.binding, called]
  · rw [if_neg last, before]
    have other : k ≠ (p.declared ++ L).length := by omega
    rcases Nat.lt_or_gt_of_ne other with front | behind
    · rw [List.getElem?_append_left front, List.getElem?_append_left front]
    · rw [List.getElem?_eq_none (by rw [List.length_append]; exact behind),
        List.getElem?_eq_none (by rw [List.length_append]; exact behind)]

/-- The variables of a `local` statement come into scope, the last one maybe as a name
for a constant. -/
theorem shapes_bindLocals {p : Shape} (names : List (Bytes × Attribute)) (count : Nat)
    (last : Operand)
    {constant : Option Const} (is : declaredConstant names count last = constant) :
    Shapes (p.pend (names.map fun n => .variable n.1)) (bindLocals names count last)
      (p.extend (localVariables names constant)) := by
  have ends : ∀ {q : Shape} (d : Draft), Shapes q (do
      if names.any fun p => p.2 == .close then
        markClosing
        discard (emit (.markClose (levelOf (← draft) (d.active + (names.takeWhile fun p =>
          p.2 != .close).length))))) q := by
    intro q d
    split
    · exact shapes_bind shapes_markClosing fun _ => shapes_next calm_draft fun _ =>
        (calm_discard (calm_emit _)).shapes _
    · exact (calm_pure _).shapes _
  rw [bindLocals_eq, is]
  refine shapes_next calm_draft fun d => ?_
  cases constant with
  | none =>
    refine shapes_next (calm_adjust _ _ _) fun _ => shapes_bind (shapes_activate _) fun _ => ?_
    have all := Shape.activate_pend_all (p := p) (L := names.map fun n => Binding.variable n.1)
    rw [List.length_map] at all
    rw [all]
    have same : localVariables names none = (names.map fun n => Binding.variable n.1).reverse := by
      unfold localVariables
      rw [← List.map_reverse]
      cases names.reverse <;> rfl
    rw [same]
    exact ends d
  | some c =>
    obtain ⟨others, last', rfl⟩ : ∃ others last', names = others ++ [last'] := by
      rcases names.eq_nil_or_concat with rfl | ⟨others, last', rfl⟩
      · cases is
      · exact ⟨others, last', by simp⟩
    have placed : localVariables (others ++ [last']) (some c) =
        ⟨last'.1, some c⟩ :: (others.map fun n => Binding.variable n.1).reverse := by
      simp [localVariables]
    have length : (others ++ [last']).length - 1 = others.length := by simp
    rw [placed, length]
    refine shapes_bind (q := (p.pend (others.map fun n => .variable n.1)).pend [⟨last'.1,
      some c⟩]) ?_ fun _ =>
      shapes_bind (shapes_activate _) fun _ => shapes_bind (shapes_change fun d shape =>
        ⟨rfl, rfl, ?_⟩) fun _ => ends d
    · refine shapes_change fun d shape => ⟨rfl, rfl, ?_⟩
      exact shape_markLast (by rw [shape, List.map_append]; rfl)
    · have vars := congrArg Shape.declared shape
      have active := congrArg Shape.active shape
      have scopes := congrArg Shape.scopes shape
      simp only [Draft.shape, Shape.pend, Shape.activate, Shape.extend] at vars active scopes ⊢
      rw [vars, active, scopes]
      simp [Nat.add_assoc]

/-- Nothing is known of the results of a call. -/
theorem gives_finishCall (f last line) :
    Gives (finishCall f last line) (Operand.Meets · .unknown) := by
  unfold finishCall
  dsimp only
  repeat' first
    | with_reducible refine gives_bind fun _ => ?_
    | split
  all_goals exact gives_pure ⟨rfl, rfl, rfl, rfl⟩

/-- Nothing is known of a new table. -/
theorem gives_endTable (pc t) : Gives (endTable pc t) (Operand.Meets · .unknown) := by
  unfold endTable
  exact gives_bind fun _ => gives_bind fun _ => gives_bind fun _ => gives_pure ⟨rfl, rfl, rfl, rfl⟩

/-- A walk that fails may be said to do anything. -/
theorem walks_throw {Δ : Bindings} {p q : Shape} {N S} {Q : α → Prop} (e : ChunkFault) :
    Walks Δ p (throw e : Gen α) q N S Q := by
  rintro b v b' - - - ⟨⟩

/-! ## The parts of a tree -/

/-- Does the walk over an expression do what the tree tells? -/
def ExprWalks (e : Expr) : Prop := ∀ Δ p,
  Walks Δ p (expr e) p (p.past e.free) (e.sites (p.visible ++ Δ)) (Result (p.visible ++ Δ) e)

/-- Does the walk over expressions do what the tree tells? -/
def ExprsWalk (es : List Expr) : Prop := ∀ Δ p,
  Walks Δ p (exprList es) p (p.past (exprsFree es)) (exprsSites (p.visible ++ Δ) es) (Listed (p.visible ++ Δ) es)

/-- Does the walk over the targets of an assignment do what the tree tells? -/
def TargetsWalk (es : List Expr) : Prop := ∀ Δ p earlier,
  Walks Δ p (targetList earlier es) p (p.past (exprsFree es)) (exprsSites (p.visible ++ Δ) es) fun _ => True

/-- Does the walk over arguments do what the tree tells? -/
def ArgumentsWalk (args : Arguments) : Prop := ∀ Δ p f,
  Walks Δ p (callWith f args) p (p.past args.free) (args.sites (p.visible ++ Δ)) fun v =>
    v.Meets .unknown

/-- Does the walk over a field of a table do what the tree tells? -/
def ItemWalks (f : Item) : Prop := ∀ Δ p t,
  Walks Δ p (item t f) p (p.past f.free) (f.sites (p.visible ++ Δ)) fun _ => True

/-- Does the walk over the fields of a table do what the tree tells? -/
def ItemsWalk (items : List Item) : Prop := ∀ Δ p trailing t,
  Walks Δ p (itemList trailing t items) p (p.past (itemsFree items)) (itemsSites (p.visible ++ Δ) items) fun _ => True

/-- Does the walk over statements do what the tree tells? -/
def BlockWalks (block : List Stat) : Prop := ∀ Δ p, p.Full →
  Walks Δ p (stats 0 block) (p.extend (blockBindings (p.visible ++ Δ) block)) (p.past (blockFree block []))
    (blockSites (p.visible ++ Δ) block) fun _ => True

/-- Does the walk over a function do what the tree tells? -/
def BodyWalks (body : Body) : Prop := ∀ Δ p isMethod line,
  Walks Δ p (function isMethod line body) p (p.past (body.free isMethod)) [⟨p.visible ++ Δ,
    isMethod, body⟩] fun v =>
    v.Meets .unknown

/-- Does the walk over a statement do what the tree tells? -/
def StatWalks (s : Stat) : Prop := ∀ Δ p, p.Full →
  Walks Δ p (stat s) (p.extend (s.bindings (p.visible ++ Δ))) (p.past s.free) (s.sites (p.visible ++ Δ)) fun _ => True

/-- Does the walk over alternatives do what the tree tells? -/
def ClausesWalk (cs : List Clause) : Prop := ∀ Δ p more, p.Full →
  Walks Δ p (clauses more cs) p (p.past (clausesFree cs)) (clausesSites (p.visible ++ Δ) cs) fun _ => True

section Expressions

-- The equations that the proofs below unfold, worked out once for all of them.
attribute [local simp] expr exprList callWith itemList item targetList Expr.free exprsFree Arguments.free Item.free
  itemsFree Expr.sites exprsSites Arguments.sites Item.sites itemsSites

variable {e l r key : Expr} {es : List Expr} {args : Arguments} {items : List Item} {f : Item}
    {body : Body}

/-- An operand that is worked out at once. -/
theorem walks_plain {Δ : Bindings} {p : Shape} {v : Operand}
    (meets : v.Meets (e.forecast (p.visible ++ Δ)))
    (other : ∀ n, e ≠ .name n) : Walks Δ p (do
      advance
      return v) p [] [] (Result (p.visible ++ Δ) e) :=
  calm_advance.step fun _ => (calm_pure _).walks (gives_pure (result_of_meets meets other))

theorem walks_nil : ExprWalks .nil := by
  intro Δ p
  simp only [expr, Expr.free, Expr.sites]
  exact walks_plain ⟨rfl, rfl, rfl, rfl⟩ nofun

theorem walks_true : ExprWalks .true := by
  intro Δ p
  simp only [expr, Expr.free, Expr.sites]
  exact walks_plain ⟨rfl, rfl, rfl, rfl⟩ nofun

theorem walks_false : ExprWalks .false := by
  intro Δ p
  simp only [expr, Expr.free, Expr.sites]
  exact walks_plain ⟨rfl, rfl, rfl, rfl⟩ nofun

theorem walks_number (n : Number) : ExprWalks (.number n) := by
  intro Δ p
  simp only [expr, Expr.free, Expr.sites]
  exact walks_plain ⟨rfl, rfl, rfl, rfl⟩ nofun

theorem walks_str (s : Bytes) : ExprWalks (.str s) := by
  intro Δ p
  simp only [expr, Expr.free, Expr.sites]
  exact walks_plain ⟨rfl, rfl, rfl, rfl⟩ nofun

/-- The arguments that have no names refer to nothing. -/
theorem walks_vararg : ExprWalks .vararg := by
  intro Δ p
  simp only [expr, Expr.free, Expr.sites]
  exact (calm_emit _).step fun pc => walks_plain ⟨rfl, rfl, rfl, rfl⟩ nofun

/-- A function is written behind all others, and refers to what its body refers to. -/
theorem walks_functionExpr (h : BodyWalks body) : ExprWalks (.function body) := by
  intro Δ p
  simp only [expr, Expr.free, Expr.sites]
  exact calm_advance.step fun _ => calm_nextLine.step fun line =>
    walks_imp (h Δ p false line) fun v meets => result_of_meets meets nofun

/-- A table constructor refers to what its fields refer to. -/
theorem walks_table (h : ItemsWalk items) (trailing : Bool) :
    ExprWalks (.table items trailing) := by
  intro Δ p
  simp only [expr, Expr.free, Expr.sites]
  exact calm_beginTable.step fun t => walks_last (h Δ p trailing t.2) fun t' _ =>
    (calm_endTable _ _).walks (gives_imp (gives_endTable _ _) fun v meets =>
      result_of_meets meets nofun)

/-- A name refers to itself. -/
theorem walks_name (n : Bytes) : ExprWalks (.name n) := by
  intro Δ p
  simp only [expr, Expr.free, Expr.sites]
  exact calm_advance.step fun _ => walks_nameOperand n

/-- In parentheses an expression has one value, but is otherwise the same. -/
theorem walks_paren (h : ExprWalks e) : ExprWalks (.paren e) := by
  intro Δ p
  simp only [expr, Expr.free, Expr.sites]
  exact calm_advance.step fun _ => walks_last (h Δ p) fun v known => calm_advance.step fun _ =>
    (calm_discharge v).walks (gives_imp (Operand.gives_discharge known.1) fun w meets =>
      result_of_meets meets nofun)

/-- A field that is named refers to what its table refers to. -/
theorem walks_field (h : ExprWalks e) (name : Bytes) : ExprWalks (.field e name) := by
  intro Δ p
  simp only [expr, Expr.free, Expr.sites]
  exact walks_last (h Δ p) fun v _ =>
    (calm_toAnyOrCaptured v).stepGives (Operand.gives_toAnyOrCaptured v) fun t place =>
      (calm_advanceBy 2).step fun _ => (calm_index _ _).walks
        (gives_imp (Operand.gives_index place _) fun w meets => result_of_meets meets nofun)

/-- An index refers to what its table refers to, and then to what its key refers to. -/
theorem walks_index (h : ExprWalks e) (k : ExprWalks key) : ExprWalks (.index e key) := by
  intro Δ p
  simp only [expr, Expr.free, Expr.sites, Shape.past_append]
  exact walks_bind (h Δ p) fun v _ =>
    (calm_toAnyOrCaptured v).stepGives (Operand.gives_toAnyOrCaptured v) fun t place =>
      calm_advance.step fun _ => walks_last (k Δ p) fun k _ => (calm_toValue k).step fun k =>
        calm_advance.step fun _ => (calm_index _ _).walks
          (gives_imp (Operand.gives_index place _) fun w meets => result_of_meets meets nofun)

/-- A call refers to what its function refers to, and then to what its arguments refer
to. -/
theorem walks_call (h : ExprWalks e) (k : ArgumentsWalk args) : ExprWalks (.call e args) := by
  intro Δ p
  simp only [expr, Expr.free, Expr.sites, Shape.past_append]
  exact walks_bind (h Δ p) fun v _ => (calm_toNext v).step fun f =>
    walks_imp (k Δ p f) fun w meets => result_of_meets meets nofun

/-- A call of a method does so too; the name of the method is none that is looked up. -/
theorem walks_method (h : ExprWalks e) (name : Bytes) (k : ArgumentsWalk args) :
    ExprWalks (.method e name args) := by
  intro Δ p
  simp only [expr, Expr.free, Expr.sites, Shape.past_append]
  exact walks_bind (h Δ p) fun v _ => (calm_advanceBy 2).step fun _ => (calm_self _ _).step fun f =>
    walks_imp (k Δ p f) fun w meets => result_of_meets meets nofun

/-- An operator with one operand. -/
theorem walks_unary (op : UnaryOperator) (h : ExprWalks e) : ExprWalks (.unary op e) := by
  intro Δ p
  simp only [expr, Expr.free, Expr.sites]
  exact calm_nextLine.step fun line => calm_advance.step fun _ => walks_last (h Δ p) fun v known =>
    (calm_unary op v line).walks (gives_imp (Operand.gives_unary op line known.1) fun w meets =>
      result_of_meets meets nofun)

/-- An operator with two operands, the first one before the second. -/
theorem walks_binary (op : BinaryOperator) (h : ExprWalks l) (k : ExprWalks r) :
    ExprWalks (.binary op l r) := by
  intro Δ p
  simp only [expr, Expr.free, Expr.sites, Shape.past_append]
  exact walks_bind (h Δ p) fun a left => calm_nextLine.step fun line => calm_advance.step fun _ =>
    (calm_infixStart op a).stepGives (Operand.gives_infixStart op left.1) fun a' started =>
      walks_last (k Δ p) fun b right => (calm_infixEnd op a' b line).walks
        (gives_imp (Operand.gives_infixEnd op line started right.1) fun w meets =>
          result_of_meets meets nofun)

theorem walks_malformed (fault : ChunkFault) : ExprWalks (.malformed fault) := by
  intro Δ p
  simp only [expr]
  exact walks_throw fault

/-- An expression that breaks off is walked over and then refused. -/
theorem walks_broken (fault : ChunkFault) : ExprWalks (.broken e fault) := by
  intro Δ p b v b' _ _ _ run
  simp only [expr] at run
  obtain ⟨_, _, -, run⟩ := bind_ok run
  cases run

theorem walks_exprsNil : ExprsWalk [] := by
  intro Δ p
  simp only [exprList, exprsFree, exprsSites]
  exact (calm_pure _).walks (gives_pure ⟨rfl, fun _ => rfl, nofun⟩)

/-- Expressions are walked over in their order. -/
theorem walks_exprsCons (h : ExprWalks e) (k : ExprsWalk es) : ExprsWalk (e :: es) := by
  intro Δ p
  simp only [exprList, exprsFree, exprsSites, Shape.past_append]
  refine walks_bind (h Δ p) fun v known => ?_
  cases es with
  | nil =>
    simp only [List.isEmpty_nil, if_true, exprsFree, exprsSites]
    exact (calm_pure _).walks (gives_pure ⟨rfl, nofun, by rintro _ ⟨⟩; exact known.2⟩)
  | cons e' rest =>
    simp only [List.isEmpty_cons, Bool.false_eq_true, if_false]
    refine calm_advance.step fun _ => (calm_discard (calm_toNext v)).step fun _ =>
      walks_last (k Δ p) fun r listed => (calm_pure _).walks (gives_pure ?_)
    refine ⟨by simp [listed.1], nofun, fun last is => ?_⟩
    exact listed.2.2 last (by simpa using is)

theorem walks_targetsNil : TargetsWalk [] := by
  intro Δ p earlier
  simp only [targetList, exprsFree, exprsSites]
  exact (calm_pure _).walks gives_true

/-- The targets of an assignment are walked over in their order. -/
theorem walks_targetsCons (h : ExprWalks e) (k : TargetsWalk es) : TargetsWalk (e :: es) := by
  intro Δ p earlier
  simp only [targetList, exprsFree, exprsSites, Shape.past_append]
  refine walks_bind (h Δ p) fun v _ => ?_
  have tail : ∀ earlier, Walks Δ p (do
      checkAssignable v
      if !es.isEmpty then advance
      targetList (v :: earlier) es) p (p.past (exprsFree es)) (exprsSites (p.visible ++ Δ) es) fun _ => True := by
    intro earlier
    refine (calm_checkAssignable v).step fun _ => ?_
    split
    · exact calm_advance.step fun _ => k Δ p _
    · exact k Δ p _
  split
  · exact tail earlier
  · exact (calm_avoidConflict earlier v).step fun earlier => tail earlier

theorem walks_parens (h : ExprsWalk es) : ArgumentsWalk (.parens es) := by
  intro Δ p f
  simp only [callWith, Arguments.free, Arguments.sites]
  refine calm_nextLine.step fun line => calm_advance.step fun _ => walks_last (h Δ p) fun r _ => ?_
  have tail : Walks Δ p (do
      advance
      finishCall f r.2 line) p [] [] fun v => v.Meets .unknown :=
    calm_advance.step fun _ => (calm_finishCall _ _ _).walks (gives_finishCall _ _ _)
  split
  · exact (calm_setResults _ _).step fun _ => tail
  · exact tail

theorem walks_strArgument (s : Bytes) : ArgumentsWalk (.str s) := by
  intro Δ p f
  simp only [callWith, Arguments.free, Arguments.sites]
  exact calm_nextLine.step fun line => calm_advance.step fun _ =>
    (calm_finishCall _ _ _).walks (gives_finishCall _ _ _)

theorem walks_tableArgument (h : ItemsWalk items) (trailing : Bool) :
    ArgumentsWalk (.table items trailing) := by
  intro Δ p f
  simp only [callWith, Arguments.free, Arguments.sites]
  exact calm_nextLine.step fun line => calm_beginTable.step fun t =>
    walks_last (h Δ p trailing t.2) fun t' _ => (calm_endTable _ _).step fun e =>
      (calm_finishCall _ _ _).walks (gives_finishCall _ _ _)

theorem walks_malformedArguments (fault : ChunkFault) : ArgumentsWalk (.malformed fault) := by
  intro Δ p f
  simp only [callWith]
  exact walks_throw fault

theorem walks_itemsNil : ItemsWalk [] := by
  intro Δ p trailing t
  simp only [itemList, itemsFree, itemsSites]
  exact (calm_pure _).walks gives_true

/-- The fields of a table are walked over in their order. -/
theorem walks_itemsCons (h : ItemWalks f) (k : ItemsWalk items) : ItemsWalk (f :: items) := by
  intro Δ p trailing t
  simp only [itemList, itemsFree, itemsSites, Shape.past_append]
  refine (calm_closeElement t).step fun t => walks_bind (h Δ p t) fun t _ => ?_
  split
  · exact calm_advance.step fun _ => k Δ p trailing t
  · exact k Δ p trailing t

/-- An element of a table. -/
theorem walks_positional (h : ExprWalks e) : ItemWalks (.positional e) := by
  intro Δ p t
  simp only [item, Item.free, Item.sites]
  exact walks_last (h Δ p) fun v _ => (calm_pure _).walks gives_true

theorem walks_named (name : Bytes) (h : ExprWalks e) : ItemWalks (.named name e) := by
  intro Δ p t
  simp only [item, Item.free, Item.sites]
  exact calm_draft.step fun d => (calm_advanceBy 2).step fun _ => (calm_index _ _).step fun place =>
    walks_last (h Δ p) fun v _ => (calm_store _ _).step fun _ => (calm_free _).step fun _ =>
      (calm_pure _).walks gives_true

/-- A field with a key, the key before the value. -/
theorem walks_keyed (k : ExprWalks key) (h : ExprWalks e) : ItemWalks (.keyed key e) := by
  intro Δ p t
  simp only [item, Item.free, Item.sites, Shape.past_append]
  exact calm_draft.step fun d => calm_advance.step fun _ => walks_bind (k Δ p) fun k _ =>
    (calm_toValue k).step fun k => (calm_advanceBy 2).step fun _ =>
      (calm_index _ _).step fun place =>
      walks_last (h Δ p) fun v _ => (calm_store _ _).step fun _ => (calm_free _).step fun _ =>
        (calm_pure _).walks gives_true

end Expressions

end Gen
end NpcDialog.Lua
