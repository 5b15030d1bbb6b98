import NpcDialog.Proofs.Code.Expressions

/-!
# Walks over statements

The walk over each kind of statement does what the tree tells of it, if the walks over
its parts do.

* `Gen.BlockWalks.of_all` — blocks.
* `Gen.BlockWalks.looped` — the body of a `for` loop, in the scope of its variables and
  of hidden ones.
* `Gen.walks_clausesCons` — alternatives.
* `Gen.walks_empty` and others — the kinds of statements.
-/

namespace NpcDialog.Lua

open Bytes (ofText)

namespace Shape

variable {p q : Shape}

/-- The names that go past a function depend on what is visible only. -/
theorem past_of_visible (same : q.visible = p.visible) (l : List Bytes) : q.past l = p.past l := by
  rw [past, past, same]

/-- The shape in a loop, with hidden variables and those that the loop declares. -/
def looped (p : Shape) (hidden : Nat) (names : List Bytes) : Shape :=
  (p.opened.extend (Bindings.hidden hidden)).opened.extend (Bindings.declared names)

/-- In a loop all variables are in scope. -/
theorem Full.looped {hidden : Nat} {names : List Bytes} (full : p.Full) :
    (p.looped hidden names).Full :=
  full.opened.extend.opened.extend

/-- What a loop declares is visible in front of all others. -/
theorem Full.visible_looped {hidden : Nat} {names : List Bytes} (full : p.Full) :
    (p.looped hidden names).visible =
      Bindings.declared names ++ (Bindings.hidden hidden ++ p.visible) := by
  rw [Shape.looped, full.opened.extend.opened.visible_extend, visible_opened,
    full.opened.visible_extend, visible_opened]

end Shape

-- The equations that the proofs below unfold, worked out once for all of them.
attribute [local simp] Stat.free Stat.binds Stat.bindings Stat.sites blockFree blockBindings blockSites Clause.free
  clausesFree Clause.sites clausesSites Gen.stats

/-! ## Statements that say nothing -/

/-- Statements that bind nothing and refer to nothing. -/
def Stat.Silent (s : Stat) : Prop := s = .empty ∨ s = .break

/-- Statements that say nothing can be left out in front of a block, as far as names go.
-/
theorem blockFree_silent {front : List Stat} (silent : ∀ s ∈ front, s.Silent) (back : List Stat)
    (tail : List Bytes) :
    blockFree (front ++ back) tail = blockFree back tail := by
  induction front with
  | nil => rfl
  | cons s rest ih =>
    have binds : ∀ l, unbound [] l = l := fun l => by simp [unbound]
    rw [List.cons_append, blockFree, ih fun t mem => silent t (List.mem_cons_of_mem _ mem)]
    rcases silent s (List.mem_cons_self ..) with rfl | rfl <;>
      simp only [Stat.free, Stat.binds, Stat.bindings, List.map_nil, binds, List.nil_append]

/-- And as far as functions go. -/
theorem blockSites_silent {front : List Stat} (silent : ∀ s ∈ front, s.Silent) (Γ : Bindings)
    (back : List Stat) :
    blockSites Γ (front ++ back) = blockSites Γ back := by
  induction front with
  | nil => rfl
  | cons s rest ih =>
    rw [List.cons_append, blockSites]
    rcases silent s (List.mem_cons_self ..) with rfl | rfl <;>
      simp only [Stat.sites, Stat.bindings, List.nil_append, ih fun t mem =>
        silent t (List.mem_cons_of_mem _ mem)]

/-- A block that begins with a `break` does not say anything in front of the first
statement behind it that is not empty. -/
theorem silent_front {block : List Stat} (leaves : (block.head?).any Gen.isBreak = true) :
    ∃ front, (∀ s ∈ front, s.Silent) ∧ front.length = (block.tail.takeWhile Gen.isEmptyStat).length + 1 ∧
      block = front ++ block.drop ((block.tail.takeWhile Gen.isEmptyStat).length + 1) := by
  cases block with
  | nil => cases leaves
  | cons s rest =>
    have first : s = .break := by
      cases s <;> first | rfl | cases leaves
    subst first
    refine ⟨.break :: rest.takeWhile Gen.isEmptyStat, ?_, rfl, ?_⟩
    · intro s mem
      rcases List.mem_cons.1 mem with rfl | mem
      · exact .inr rfl
      · left
        have blank := List.all_eq_true.1 List.all_takeWhile s mem
        cases s <;> first | rfl | cases blank
    · have whole := List.takeWhile_append_dropWhile (p := Gen.isEmptyStat) (l := rest)
      have behind : rest.drop (rest.takeWhile Gen.isEmptyStat).length = rest.dropWhile Gen.isEmptyStat :=
        (congrArg (List.drop _) whole.symm).trans List.drop_left
      rw [List.drop_succ_cons, List.tail_cons, behind, List.cons_append, whole]

namespace Gen

variable {α β : Type} {Δ : Bindings} {p q r : Shape} {N M : List Bytes} {S T : List Site}
    {Q : α → Prop} {R : β → Prop}

/-- The value of a `local` statement is walked over while its variables are not in scope
yet. -/
theorem ExprWalks.pending {e : Expr} {L : List Binding} (h : ExprWalks e) (full : p.Full) :
    Walks Δ (p.pend L) (expr e) (p.pend L) (p.past e.free) (e.sites (p.visible ++ Δ)) (Result (p.visible ++ Δ) e) := by
  have walk := h Δ (p.pend L)
  rwa [full.visible_pend, full.past_pend] at walk

/-- So are several values. -/
theorem ExprsWalk.pending {es : List Expr} {L : List Binding} (h : ExprsWalk es) (full : p.Full) :
    Walks Δ (p.pend L) (exprList es) (p.pend L) (p.past (exprsFree es)) (exprsSites (p.visible ++ Δ) es)
      (Listed (p.visible ++ Δ) es) := by
  have walk := h Δ (p.pend L)
  rwa [full.visible_pend, full.past_pend] at walk

/-- The result of a walk need not be used. -/
theorem walks_discard {x : Gen α} (h : Walks Δ p x q N S Q) :
    Walks Δ p (discard x) q N S fun _ => True := by
  have mapped : Walks Δ p ((fun _ => PUnit.unit) <$> x) q N S fun _ => True := by
    rw [map_eq_pure_bind]
    exact walks_last h fun _ _ => (calm_pure _).walks gives_true
  exact mapped

section Statements

variable {e : Expr} {es targets : List Expr} {block : List Stat} {body : Body} {s : Stat}
    {rest : List Stat}

theorem walks_blockNil : BlockWalks [] := by
  intro Δ p full
  simp only [stats, blockBindings, blockFree, blockSites, Shape.extend_nil]
  exact (calm_pure _).walks gives_true

/-- A statement brings its variables into scope for those behind it. -/
theorem walks_blockCons (h : StatWalks s) (k : BlockWalks rest) : BlockWalks (s :: rest) := by
  intro Δ p full
  have tail := k Δ _ (full.extend (B := s.bindings (p.visible ++ Δ)))
  rw [full.visible_extend, full.past_extend_binds, Shape.extend_extend, List.append_assoc] at tail
  simp only [stats, blockBindings, blockFree, blockSites, Shape.past_append]
  exact walks_bind (h Δ p full) fun _ _ => calm_variableLevel.step fun _ =>
    (calm_free _).step fun _ => tail

theorem walks_empty : StatWalks .empty := by
  intro Δ p full
  simp only [Stat.free, Stat.sites, Stat.bindings, Shape.extend_nil]
  exact calm_advance.walks gives_true

/-- A `local` statement refers to its values before its variables come into scope. -/
theorem walks_local (names : List (Bytes × Attribute)) (h : ExprsWalk es) :
    StatWalks (.local names (some es)) := by
  intro Δ p full
  simp only [Stat.free, Stat.sites, Stat.bindings, Option.getD_some]
  exact calm_advance.step fun _ => (shapes_declareLocals names).step fun _ =>
    calm_advance.step fun _ =>
    walks_last (h.pending full) fun r listed =>
      (shapes_bindLocals names r.1 r.2 (declaredConstant_listed names listed)).walks gives_true

theorem walks_localPlain (names : List (Bytes × Attribute)) : StatWalks (.local names none) := by
  intro Δ p full
  simp only [Stat.free, Stat.sites, Stat.bindings, Option.getD_none]
  have listed : Listed (p.visible ++ Δ) [] (0, Operand.plain .void) := ⟨rfl, fun _ => rfl, nofun⟩
  exact calm_advance.step fun _ => (shapes_declareLocals names).step fun _ =>
    (shapes_bindLocals names 0 _ (declaredConstant_listed names listed)).walks gives_true

/-- An assignment refers to its targets first and then to its values. -/
theorem walks_assign (h : TargetsWalk targets) (k : ExprsWalk es) :
    StatWalks (.assign targets es) := by
  intro Δ p full
  simp only [Stat.free, Stat.sites, Stat.bindings, Shape.extend_nil, Shape.past_append]
  refine walks_bind (h Δ p []) fun places _ => calm_advance.step fun _ =>
    walks_last (k Δ p) fun r _ =>
    Calm.walks ?_ gives_true
  grind

theorem walks_callStat (h : ExprWalks e) : StatWalks (.call e) := by
  intro Δ p full
  simp only [Stat.free, Stat.sites, Stat.bindings, Shape.extend_nil]
  exact walks_last (h Δ p) fun v _ => (calm_setResults _ _).walks gives_true

/-- What a block declares is out of scope behind it. -/
theorem walks_block (k : BlockWalks block) : StatWalks (.block block) := by
  intro Δ p full
  simp only [Stat.free, Stat.sites, Stat.bindings, Shape.extend_nil]
  exact calm_advance.step fun _ => (shapes_open false).step fun _ =>
    walks_last (k Δ p.opened full.opened) fun _ _ => (shapes_close full).step fun _ =>
      calm_advance.walks gives_true

/-- A `while` loop: the condition first, then the block. -/
theorem walks_while (h : ExprWalks e) (k : BlockWalks block) : StatWalks (.while e block) := by
  intro Δ p full
  simp only [Stat.free, Stat.sites, Stat.bindings, Shape.extend_nil, Shape.past_append]
  exact calm_advance.step fun _ => calm_label.step fun start => walks_bind (h Δ p) fun v _ =>
    (calm_conditionJumps v).step fun leaving => (shapes_open true).step fun _ =>
      calm_advance.step fun _ =>
      (shapes_open false).step fun _ => walks_last (k Δ p.opened.opened full.opened.opened) fun _ _ =>
        (shapes_close full.opened).step fun _ => calm_emitJump.step fun pc =>
          (calm_patchTo _ _).step fun _ =>
          calm_advance.step fun _ => (shapes_close_empty full).step fun _ =>
            (calm_patchHere _).walks gives_true

/-- A `repeat` loop: the condition still sees what the block declares. -/
theorem walks_repeat (k : BlockWalks block) (h : ExprWalks e) : StatWalks (.repeat block e) := by
  intro Δ p full
  simp only [Stat.free, Stat.sites, Stat.bindings, Shape.extend_nil]
  rw [Shape.past_tail full (p.visible ++ Δ)]
  -- The condition stands in the scope of the variables of the block.
  have cond := h Δ (p.opened.opened.extend (blockBindings (p.visible ++ Δ) block))
  rw [full.opened.opened.visible_extend, List.append_assoc] at cond
  refine calm_label.step fun start => (shapes_open true).step fun _ =>
    (shapes_open false).step fun _ =>
    calm_advance.step fun _ => walks_bind (k Δ p.opened.opened full.opened.opened) fun _ _ =>
      calm_advance.step fun _ => walks_last cond fun v _ =>
        (calm_conditionJumps v).step fun again =>
        calm_draft.step fun d => calm_draft.step fun d' => calm_draft.step fun d'' =>
          (shapes_close full.opened).step fun _ => ?_
  have ends : ∀ again, Walks Δ p.opened (do
      Operand.patchTo again start
      closeScope) p [] [] fun _ => True := fun again =>
    (calm_patchTo _ _).step fun _ => (shapes_close_empty full).walks gives_true
  split
  · exact calm_emitJump.step fun leaving => (calm_patchHere _).step fun _ =>
      (calm_discard (calm_emit _)).step fun _ =>
      calm_emitJump.step fun again => (calm_patchHere _).step fun _ => ends _
  · exact ends _

/-- Alternatives, and a block for when none holds. -/
theorem walks_ite {cs : List Clause} (h : ClausesWalk cs) (k : BlockWalks block) :
    StatWalks (.ite cs (some block)) := by
  intro Δ p full
  simp only [Stat.free, Stat.sites, Stat.bindings, Shape.extend_nil, Shape.past_append]
  exact walks_bind (h Δ p _ full) fun leaving _ => calm_advance.step fun _ =>
    (shapes_open false).step fun _ =>
    walks_last (k Δ p.opened full.opened) fun _ _ => (shapes_close full).step fun _ =>
      calm_advance.step fun _ => (calm_patchHere _).walks gives_true

theorem walks_itePlain {cs : List Clause} (h : ClausesWalk cs) : StatWalks (.ite cs none) := by
  intro Δ p full
  simp only [Stat.free, Stat.sites, Stat.bindings, Shape.extend_nil, List.append_nil]
  exact walks_last (h Δ p _ full) fun leaving _ => calm_advance.step fun _ =>
    (calm_patchHere _).walks gives_true

theorem walks_break : StatWalks .break := by
  intro Δ p full
  simp only [Stat.free, Stat.sites, Stat.bindings, Shape.extend_nil]
  exact calm_nextLine.step fun line => calm_advance.step fun _ => calm_emitJump.step fun pc =>
    (calm_pendingJump _ _ _).walks gives_true

/-- A jump to a label refers to no variable. -/
theorem walks_goto (name : Bytes) : StatWalks (.goto name) := by
  intro Δ p full
  simp only [Stat.free, Stat.sites, Stat.bindings, Shape.extend_nil]
  exact calm_advance.step fun _ => (calm_emitGoto _).walks gives_true

theorem walks_label (name : Bytes) {following : List Stat} (last : Bool)
    (k : BlockWalks following) :
    StatWalks (.label name following last) := by
  intro Δ p full
  simp only [Stat.free, Stat.sites, Stat.bindings]
  refine calm_nextLine.step fun line => (calm_advanceBy 3).step fun _ =>
    walks_last (k Δ p full) fun _ _ =>
    (calm_findLabel _).step fun found => ?_
  split
  · exact (calm_faultPlain _).walks gives_true
  · exact (calm_discard (calm_makeLabel _ _ _)).walks gives_true

theorem walks_malformedStat (fault : ChunkFault) : StatWalks (.malformed fault) := by
  intro Δ p full
  exact walks_throw fault

/-- A `function` statement refers to the variable that it assigns and then to what its
body refers to. -/
theorem walks_function {name : Bytes} {fields : List Bytes} {method : Option Bytes}
    (k : BodyWalks body) :
    StatWalks (.function name fields method body) := by
  intro Δ p full
  simp only [Stat.free, Stat.sites, Stat.bindings, Shape.extend_nil]
  rw [Shape.past_cons]
  exact calm_nextLine.step fun line => (calm_advanceBy 2).step fun _ =>
    walks_bind (S := []) (walks_nameOperand name) fun v _ =>
    (calm_namePath _ _).step fun place => walks_last (k Δ p _ line) fun f _ =>
      (calm_checkAssignable _).step fun _ =>
      (calm_store _ _).step fun _ => (calm_fixLine _).walks gives_true

theorem calm_locals (f : Draft → Array LocalNote) :
    Calm (change fun d => { d with locals := f d }) :=
  calm_change fun _ => ⟨rfl, rfl, rfl, rfl, rfl⟩

/-- A local function sees itself: its variable is in scope in its body. -/
theorem walks_localFunction (name : Bytes) (k : BodyWalks body) :
    StatWalks (.localFunction name body) := by
  intro Δ p full
  simp only [Stat.free, Stat.sites, Stat.bindings]
  have opens : Shapes (p.declare (.variable name)) (activate 1) (p.extend [.variable name]) := by
    have activates := shapes_activate (p := p.declare (.variable name)) 1
    rwa [Shape.declare_eq, show (1 : Nat) = [Binding.variable name].length from rfl,
      Shape.activate_pend_all] at activates
  -- The function stands in the scope of its own name.
  have inside := fun line => k Δ (p.extend [.variable name]) false line
  rw [full.visible_extend, Shape.past_unbound [name] _ full (by simp [Binding.variable])] at inside
  exact (calm_advanceBy 3).step fun _ => (shapes_declare name).step fun _ => opens.step fun _ =>
    calm_draft.step fun d => calm_nextLine.step fun line =>
      walks_last (walks_discard (inside line)) fun _ _ =>
      (calm_locals _).walks gives_true

/-- A `return` statement refers to what its values refer to. -/
theorem walks_return (semicolon : Bool) (h : ExprsWalk es) : StatWalks (.return es semicolon) := by
  intro Δ p full
  simp only [Stat.free, Stat.sites, Stat.bindings, Shape.extend_nil]
  refine calm_advance.step fun _ => calm_variableLevel.step fun level =>
    walks_last (h Δ p) fun r _ =>
    Calm.walks ?_ gives_true
  dsimp only
  repeat' first
    | with_reducible refine calm_bind ?_ fun _ => ?_
    | split
  all_goals grind

theorem shapes_activateHidden (n : Nat) (L : List Binding) :
    Shapes (p.pend (Bindings.hidden n ++ L)) (activate n) ((p.extend (Bindings.hidden n)).pend L) := by
  have activates := shapes_activate (p := p.pend (Bindings.hidden n ++ L)) n
  have all := Shape.activate_pend (p := p) (L := Bindings.hidden n) (K := L)
  have length : (Bindings.hidden n).length = n := List.length_replicate
  have reverse : (Bindings.hidden n).reverse = Bindings.hidden n := List.reverse_replicate ..
  rw [length, reverse] at all
  rwa [all] at activates

/-- At the beginning of a loop its hidden variables come into scope, and a block for the
named ones begins. -/
theorem shapes_beginLoop (base : Nat) (names : List Bytes) (isGeneric : Bool) :
    Shapes (p.pend (names.map .variable)) (beginLoop base names.length isGeneric)
      (p.opened.extend (Bindings.declared names)) := by
  have activates := shapes_activate (p := p.opened.pend (names.map .variable)) names.length
  have all := Shape.activate_pend_all (p := p.opened) (L := names.map Binding.variable)
  rw [List.length_map] at all
  rw [all] at activates
  exact shapes_next calm_advance fun _ => shapes_next (calm_emit _) fun prep =>
    shapes_bind (shapes_open false) fun _ =>
    shapes_bind activates fun _ => shapes_next (calm_reserve _) fun _ => (calm_pure _).shapes _

/-- At its end both are out of scope again. -/
theorem shapes_endLoop {B : Bindings} (full : p.Full) (base vars line prep : Nat)
    (isGeneric : Bool) :
    Shapes (p.opened.extend B) (endLoop base vars line prep isGeneric) p := by
  refine shapes_bind (shapes_close full) fun _ => Calm.shapes ?_ p
  refine calm_bind calm_label fun at_ => calm_bind (calm_fixJump _ _) fun _ => ?_
  split
  · exact calm_bind (calm_discard (calm_emit _)) fun _ => calm_bind (calm_fixLine _) fun _ =>
      calm_bind (calm_discard (calm_emit _)) fun _ => calm_fixLine _
  · exact calm_bind (calm_discard (calm_emit _)) fun _ => calm_fixLine _

/-- The body of a loop, in the scope of the variables that it declares and of hidden ones. -/
theorem BlockWalks.looped (k : BlockWalks block) (full : p.Full) (Δ : Bindings) (hidden : Nat)
    (names : List Bytes) :
    Walks Δ (p.looped hidden names).opened (stats 0 block)
      ((p.looped hidden names).opened.extend
        (blockBindings (Bindings.declared names ++ (Bindings.hidden hidden ++ (p.visible ++ Δ)))
          block))
      (p.past (unbound ((Bindings.declared names ++ Bindings.hidden hidden).map Binding.name)
        (blockFree block [])))
      (blockSites (Bindings.declared names ++ (Bindings.hidden hidden ++ (p.visible ++ Δ))) block)
      fun _ => True := by
  have walk := k Δ (p.looped hidden names).opened full.looped.opened
  have same : (p.looped hidden names).opened.visible =
      (p.extend (Bindings.declared names ++ Bindings.hidden hidden)).visible := by
    rw [Shape.visible_opened, full.visible_looped, full.visible_extend, List.append_assoc]
  rw [Shape.past_of_visible same, Shape.past_unbound _ _ full fun n => Iff.rfl,
    Shape.visible_opened, full.visible_looped, List.append_assoc, List.append_assoc] at walk
  exact walk

/-- Which names are bound matters, not how often and in which order. -/
theorem unbound_congr {bound bound' : List Bytes} (same : ∀ n, n ∈ bound ↔ n ∈ bound')
    (l : List Bytes) :
    unbound bound l = unbound bound' l := by
  unfold unbound
  refine List.filter_congr fun n _ => ?_
  simp [same n]

/-- The hidden variables of a loop and its named one are declared. -/
theorem shapes_declareLoop (n : Nat) (name : Bytes) :
    Shapes (p.pend (Bindings.hidden n)) (declare name .regular) (p.pend (Bindings.hidden n ++ [.variable name])) := by
  have grows := shapes_declare (p := p.pend (Bindings.hidden n)) name
  rwa [Shape.declare_eq, Shape.pend_pend] at grows

/-- The body of a loop over numbers sees the variable that is counted. -/
theorem BlockWalks.numericLoop (k : BlockWalks block) (full : p.Full) (name : Bytes)
    (base line : Nat) :
    Walks Δ (p.opened.pend (Bindings.hidden 3 ++ [.variable name])) (do
      activate 3
      let prep ← beginLoop base 1 false
      openScope false
      stats 0 block
      closeScope
      endLoop base 1 line prep false
      advance
      closeScope) p (p.past (unbound [loopVariable, name] (blockFree block [])))
      (blockSites (.variable name :: (Bindings.hidden 3 ++ (p.visible ++ Δ))) block) fun _ => True := by
  have body := k.looped full Δ 3 [name]
  have bound : ∀ n, n ∈ (Bindings.declared [name] ++ Bindings.hidden 3).map Binding.name ↔
      n ∈ [loopVariable, name] := by
    intro n
    simp [Bindings.declared, Bindings.hidden, Binding.variable, or_comm]
  rw [unbound_congr bound] at body
  have opened : (p.opened.extend (Bindings.hidden 3)).Full := full.opened.extend
  exact (shapes_activateHidden _ _).step fun _ =>
    (shapes_beginLoop base [name] false).step fun prep =>
    (shapes_open false).step fun _ => walks_last body fun _ _ =>
      (shapes_close opened.opened.extend).step fun _ =>
      (shapes_endLoop opened _ _ _ _ _).step fun _ => calm_advance.step fun _ =>
        (shapes_close full).walks gives_true

/-- A loop over numbers: the bounds and the step first, none of which sees the variable.
-/
theorem walks_numericFor (name : Bytes) {first last step : Expr} (h : ExprWalks first)
    (i : ExprWalks last)
    (j : ExprWalks step) (k : BlockWalks block) :
    StatWalks (.numericFor name first last (some step) block) := by
  intro Δ p full
  simp only [Stat.free, Stat.sites, Stat.bindings, Shape.extend_nil, Shape.past_append,
    List.append_assoc]
  exact calm_nextLine.step fun line => (shapes_open true).step fun _ =>
    (calm_advanceBy 2).step fun _ =>
    calm_draft.step fun d => (shapes_declareHidden 3).step fun _ =>
      (shapes_declareLoop 3 name).step fun _ =>
      calm_advance.step fun _ => walks_bind (h.pending full.opened) fun v _ =>
        (calm_discard (calm_toNext v)).step fun _ =>
        calm_advance.step fun _ => walks_bind (i.pending full.opened) fun w _ =>
          (calm_discard (calm_toNext w)).step fun _ => calm_advance.step fun _ =>
            walks_bind (j.pending full.opened) fun s _ =>
              (calm_discard (calm_toNext s)).step fun _ =>
              k.numericLoop full name _ _

theorem walks_numericForOne (name : Bytes) {first last : Expr} (h : ExprWalks first)
    (i : ExprWalks last)
    (k : BlockWalks block) : StatWalks (.numericFor name first last none block) := by
  intro Δ p full
  simp only [Stat.free, Stat.sites, Stat.bindings, Shape.extend_nil, Shape.past_append,
    List.append_assoc,
    List.append_nil]
  exact calm_nextLine.step fun line => (shapes_open true).step fun _ =>
    (calm_advanceBy 2).step fun _ =>
    calm_draft.step fun d => (shapes_declareHidden 3).step fun _ =>
      (shapes_declareLoop 3 name).step fun _ =>
      calm_advance.step fun _ => walks_bind (h.pending full.opened) fun v _ =>
        (calm_discard (calm_toNext v)).step fun _ =>
        calm_advance.step fun _ => walks_bind (i.pending full.opened) fun w _ =>
          (calm_discard (calm_toNext w)).step fun _ => calm_defaultStep.step fun _ =>
            k.numericLoop full name _ _

/-- A loop over what a function gives: the values first, none of which sees the
variables. -/
theorem walks_genericFor (names : List Bytes) (h : ExprsWalk es) (k : BlockWalks block) :
    StatWalks (.genericFor names es block) := by
  intro Δ p full
  simp only [Stat.free, Stat.sites, Stat.bindings, Shape.extend_nil, Shape.past_append]
  have body := k.looped full Δ 4 names
  have bound : ∀ n, n ∈ (Bindings.declared names ++ Bindings.hidden 4).map Binding.name ↔
      n ∈ loopVariable :: names := by
    intro n
    simp [Bindings.declared, Bindings.hidden, Binding.variable, or_comm]
  rw [unbound_congr bound] at body
  have opened : (p.opened.extend (Bindings.hidden 4)).Full := full.opened.extend
  have tail : ∀ base : Nat, Walks Δ (p.opened.pend (Bindings.hidden 4 ++ names.map .variable)) (do
      advance
      let line ← nextLine
      let r ← exprList es
      adjust 4 r.1 r.2
      activate 4
      markClosing
      checkRegisters 3
      let prep ← beginLoop base names.length true
      openScope false
      stats 0 block
      closeScope
      endLoop base names.length line prep true
      advance
      closeScope) p (p.past (exprsFree es) ++ p.past (unbound (loopVariable :: names) (blockFree block [])))
      (exprsSites (p.visible ++ Δ) es ++
        blockSites (Bindings.declared names ++ (Bindings.hidden 4 ++ (p.visible ++ Δ))) block) fun _ => True := fun base =>
    calm_advance.step fun _ => calm_nextLine.step fun line =>
      walks_bind (h.pending full.opened) fun r _ =>
      (calm_adjust _ _ _).step fun _ => (shapes_activateHidden _ _).step fun _ =>
        shapes_markClosing.step fun _ =>
        (calm_checkRegisters _).step fun _ => (shapes_beginLoop base names true).step fun prep =>
          (shapes_open false).step fun _ => walks_last body fun _ _ =>
            (shapes_close opened.opened.extend).step fun _ =>
              (shapes_endLoop opened _ _ _ _ _).step fun _ =>
              calm_advance.step fun _ => (shapes_close full).walks gives_true
  refine (shapes_open true).step fun _ => (calm_advanceBy 2).step fun _ => calm_draft.step fun d =>
    (shapes_declareHidden 4).step fun _ => ?_
  cases names with
  | nil =>
    have plain := tail d.free
    rw [List.map_nil, List.append_nil] at plain
    exact plain
  | cons name more =>
    have others := shapes_declareMore (p := p.opened.pend (Bindings.hidden 4 ++ [.variable name])) more
    rw [Shape.pend_pend, List.append_assoc] at others
    exact (shapes_declareLoop 4 name).step fun _ => others.step fun _ => tail d.free

end Statements

/-! ## Alternatives -/

/-- A block does what the tree tells if its statements do.  The induction is on the
block. -/
theorem BlockWalks.of_all {block : List Stat} (all : ∀ s ∈ block, StatWalks s) :
    BlockWalks block := by
  induction block with
  | nil => exact walks_blockNil
  | cons s rest ih =>
    exact walks_blockCons (all s (List.mem_cons_self ..)) (ih fun t mem =>
      all t (List.mem_cons_of_mem _ mem))

/-- Statements that are left out are left out of the block. -/
theorem stats_skipped (k : Nat) (block : List Stat) : stats k block = stats 0 (block.drop k) := by
  induction block generalizing k with
  | nil => cases k <;> rfl
  | cons s rest ih =>
    cases k with
    | zero => rfl
    | succ k => exact ih k

theorem walks_clausesNil : ClausesWalk [] := by
  intro Δ p more full
  simp only [clausesFree, clausesSites]
  exact (calm_pure _).walks gives_true

/-- A condition and its block, and then the other alternatives. -/
theorem walks_clausesCons {cond : Expr} {block : List Stat} {rest : List Clause}
    (h : ExprWalks cond)
    (all : ∀ s ∈ block, StatWalks s) (k : ClausesWalk rest) :
    ClausesWalk (.mk cond block :: rest) := by
  intro Δ p more full
  simp only [clausesFree, Clause.free, clausesSites, Clause.sites, Shape.past_append,
    List.append_assoc]
  refine calm_advance.step fun _ => walks_bind (h Δ p) fun v _ => calm_advance.step fun _ => ?_
  extract_lets ends behind blanks
  have closed : Walks Δ p (behind none) p (p.past (clausesFree rest)) (clausesSites (p.visible ++ Δ) rest) fun _ => True :=
    (calm_pure _).step fun leaving => walks_last (k Δ p more full) fun others _ =>
      (calm_pure _).walks gives_true
  have unfinished : ∀ (B : Bindings) (jumps : List Nat),
    Walks Δ (p.opened.extend B) (behind (some jumps)) p
      (p.past (clausesFree rest)) (clausesSites (p.visible ++ Δ) rest) fun _ => True := by
    intro B jumps
    refine (shapes_close full).step fun _ => ?_
    have ended : ∀ leaving : List Nat, Walks Δ p (ends leaving) p (p.past (clausesFree rest))
        (clausesSites (p.visible ++ Δ) rest) fun _ => True :=
      fun leaving => walks_last (k Δ p more full) fun others _ => (calm_pure _).walks gives_true
    split
    · exact calm_emitJump.step fun pc => (calm_pure _).step fun leaving =>
        (calm_patchHere _).step fun _ =>
        (calm_pure _).step fun leaving => ended leaving
    · exact (calm_pure _).step fun leaving => (calm_patchHere _).step fun _ =>
        (calm_pure _).step fun leaving => ended leaving
  split
  next leaves =>
    -- The `break` becomes the jump of the condition; what is left is the rest of the block.
    obtain ⟨front, silent, length, whole⟩ := silent_front leaves
    refine calm_nextLine.step fun line => (calm_goIfFalse v).step fun v =>
      calm_advance.step fun _ =>
      (shapes_open false).step fun _ => (calm_pendingJump _ _ _).step fun _ => ?_
    refine (calm_advanceBy _).step fun _ => ?_
    have free : blockFree block [] = blockFree (block.drop (blanks + 1)) [] :=
      (congrArg (blockFree · []) whole).trans (blockFree_silent silent _ _)
    have sites : blockSites (p.visible ++ Δ) block = blockSites (p.visible ++ Δ) (block.drop (blanks + 1)) :=
      (congrArg (blockSites _) whole).trans (blockSites_silent silent _ _)
    rw [free, sites]
    split
    next only =>
      have none_ : block.drop (blanks + 1) = [] :=
        List.drop_of_length_le (Nat.le_of_eq (by simpa using only))
      rw [none_, blockFree, blockSites]
      exact (shapes_close_empty full).step fun _ =>
        (calm_pure _).stepGives (gives_pure (Q := (· = none)) rfl) fun skipping is => is ▸ closed
    next =>
      rw [stats_skipped]
      refine calm_emitJump.step fun pc => walks_bind
        (BlockWalks.of_all (fun s mem => all s (List.mem_of_mem_drop mem)) Δ p.opened full.opened) fun _ _ => ?_
      exact (calm_pure _).stepGives (gives_pure (Q := (· = some [pc])) rfl) fun skipping is =>
        is ▸ unfinished _ _
  next =>
    refine (calm_goIfTrue v).step fun v => (shapes_open false).step fun _ => walks_bind
      (BlockWalks.of_all all Δ p.opened full.opened) fun _ _ => ?_
    exact (calm_pure _).stepGives (gives_pure (Q := (· = some v.whenFalse)) rfl) fun skipping is =>
      is ▸ unfinished _ _

end Gen
end NpcDialog.Lua
