import NpcDialog.Proofs.Code.Statements
import NpcDialog.Proofs.Script.Entries

/-!
# Functions as they are written

A function captures what the tree tells of the place where it is written.

* `Gen.closeFunction_ok`, `Gen.leads_closeFunction` — the end of a function, where the
  names that it refers to become names that the function around it refers to.
* `Gen.exprWalks`, `Gen.statWalks` — by induction over the tree, the walk over every
  part of a program does what the tree tells.
* `Chunk.compile_fits` — compiled code is what the tree of its text tells.
* `Fits.exists_site` — every function of compiled code stands at a place in the text.
-/

namespace NpcDialog.Lua

open Bytes (ofText)

/-- What is captured, in words of a filter. -/
theorem extended_eq (Γ : Bindings) (captured names : List Bytes) :
    extended Γ captured names = captured ++
      (names.filter fun n => (Γ.holds n && n != envName.bytes) && !captured.contains n).eraseDups := by
  induction names generalizing captured with
  | nil => simp [extended]
  | cons n rest ih =>
    rw [extended, ih]
    by_cases new : (Γ.holds n && n != envName.bytes && !captured.contains n) = true
    · rw [if_pos new, List.filter_cons, if_pos new, List.eraseDups_cons, List.filter_filter,
        List.append_assoc, List.singleton_append]
      refine congrArg (captured ++ n :: List.eraseDups ·) (List.filter_congr fun m _ => ?_)
      by_cases same : m = n <;> simp [same]
    · rw [if_neg new, List.filter_cons, if_neg new]

namespace Gen

variable {α β : Type} {Δ : Bindings} {p q r : Shape} {N M : List Bytes} {S T : List Site}
    {Q : α → Prop} {R : β → Prop}

/-- A function that was written is what the tree tells of the site. -/
theorem fits_finish {source : Bytes} {d : Draft} {s : Site}
    (told : d.told = extended s.around [] (s.body.free s.isMethod))
    (children : FitAll d.children.toList s.inner) : Fits (finish source d).code s := by
  refine .intro ?_ ?_ fun i g t => ?_
  · have names : (finish source d).code.toldNames = d.told := by
      simp [FunctionCode.toldNames, finish, finishCode, finishNotes, Draft.told, Draft.captured]
    rw [names, told, extended_eq, List.nil_append, Site.capturedNames]
    refine congrArg List.eraseDups (List.filter_congr fun n _ => ?_)
    simp
  · have length := children.length_eq
    simpa [finish, finishCode] using length
  · exact fun code site => children.get code site

/-- What comes of a run that goes on inside a function that was begun at a state. -/
def Leads (b₁ : Builder) (q : Shape) (N : List Bytes) (S : List Site) (a : Gen α)
    (G : α → Builder → Prop) : Prop :=
  ∀ b v b', Effect N S b₁ b → b.draft.shape = q → a b = .ok (v, b') → G v b'

section Leads

variable {b₁ : Builder} {G : β → Builder → Prop} {x : Gen α} {f : α → Gen β}

theorem Walks.leads (outer : around b₁.outer = Δ) (first : Walks Δ q x r M T Q)
    (next : ∀ v, Q v → Leads b₁ r (N ++ M) (S ++ T) (f v) G) : Leads b₁ q N S (x >>= f) G := by
  intro b w b'' effect shape run
  obtain ⟨v, b', ran, goes⟩ := bind_ok run
  obtain ⟨shape', effect', known⟩ := first b v b' effect.sound (effect.outer.around_eq.trans outer) shape ran
  exact next v known b' w b'' (effect.trans effect') shape' goes

theorem Shapes.leads (first : Shapes q x r) (next : ∀ v, Leads b₁ r N S (f v) G) :
    Leads b₁ q N S (x >>= f) G := by
  refine Walks.leads rfl (first.walks gives_true) fun v _ => ?_
  rw [List.append_nil, List.append_nil]
  exact next v

theorem Calm.leads (first : Calm x) (next : ∀ v, Leads b₁ q N S (f v) G) :
    Leads b₁ q N S (x >>= f) G :=
  (first.shapes q).leads next

end Leads

/-- A function without any variables. -/
def bare : Shape := ⟨[], 0, []⟩

theorem full_bare : bare.Full := rfl

theorem Shape.past_bare (l : List Bytes) : bare.opened.past l = l := by
  simp [Shape.past, Shape.visible, bare, Shape.opened, unbound]

/-- The function that ends is finished, and the one around is written further. -/
theorem closeFunction_ok {b₁ b b' : Builder} {B : Bindings} {c : Compiled}
    (effect : Effect N S b₁ b)
    (shape : b.draft.shape = bare.opened.extend B) (run : closeFunction b = .ok (c, b')) :
    ∃ b₂ : Builder, Effect N S b₁ b₂ ∧ c = finish b₂.source b₂.draft ∧
      b' = { b₂ with draft := (b₂.outer.head?).getD b₂.draft, outer := b₂.outer.tail } := by
  have leads : Leads b₁ (bare.opened.extend B) N S closeFunction fun c b' => ∃ b₂ : Builder,
    Effect N S b₁ b₂ ∧
      c = finish b₂.source b₂.draft ∧
      b' = { b₂ with draft := (b₂.outer.head?).getD b₂.draft, outer := b₂.outer.tail } := by
    refine calm_variableLevel.leads fun level => (calm_discard (calm_emit _)).leads fun _ =>
      (shapes_close full_bare).leads fun _ => ?_
    rintro b₂ _ _ effect - ⟨⟩
    exact ⟨b₂, effect, rfl, rfl⟩
  exact leads b c b' effect shape run

theorem declared_append (front back : List Bytes) :
    Bindings.declared (front ++ back) = Bindings.declared back ++ Bindings.declared front := by
  simp [Bindings.declared]

theorem shapes_activateParams (params : List Bytes) :
    Shapes (p.pend (params.map .variable)) (activate params.length) (p.extend (Bindings.declared params)) := by
  have activates := shapes_activate (p := p.pend (params.map .variable)) params.length
  have all := Shape.activate_pend_all (p := p) (L := params.map Binding.variable)
  rw [List.length_map] at all
  rwa [all] at activates

/-- A function that was begun has neither variables nor captured ones. -/
theorem openFunction_ok {line : Nat} {b b₁ : Builder} {u : PUnit}
    (run : openFunction line b = .ok (u, b₁)) :
    b₁.outer = b.draft :: b.outer ∧ b₁.draft.shape = bare.opened ∧ b₁.draft.captured = [] ∧
      b₁.draft.children.toList = [] := by
  obtain ⟨⟩ := run
  exact ⟨rfl, rfl, rfl, rfl⟩

/-- What a function that was written inside is to the one around it: a function at its
site, and names that are referred to. -/
def Nested (b : Builder) (s : Site) (v : Operand) (b' : Builder) : Prop :=
  b'.draft.shape = b.draft.shape ∧
    Effect (b.draft.shape.past (s.body.free s.isMethod)) [s] b b' ∧ v.Meets .unknown

/-- The function inside is one of those around, and the names that it refers to are
referred to by the function around it. -/
theorem leads_closeFunction {b b₁ : Builder} {B : Bindings} {s : Site}
    (around₁ : b₁.outer = b.draft :: b.outer)
    (captured₁ : b₁.draft.captured = []) (children₁ : b₁.draft.children.toList = [])
    (around_ : s.around = b.draft.shape.visible ++ around b.outer) :
    Leads b₁ (bare.opened.extend B) (s.body.free s.isMethod) s.inner (do
      let inner ← closeFunction
      let k := (← draft).children.size
      change fun d => { d with children := d.children.push inner }
      let pc ← emit (.closure 0 k)
      Operand.toNext (Operand.plain (.pending pc))) (Nested b s) := by
  intro b₂ v b' effect shape run
  obtain ⟨inner, b₃, closed, run⟩ := bind_ok run
  obtain ⟨b₄, ⟨told, refers, ⟨new, added, fit⟩, sound⟩, rfl, rfl⟩ :=
    closeFunction_ok effect shape closed
  rw [around₁] at refers told
  rw [children₁, List.nil_append] at added
  generalize there : b₄.outer = outer₄ at refers sound run
  -- The names that are free in the function inside were referred to in the function around.
  cases refers with
  | @cons _ _ d' _ ds' shape' children' kept' told' refers' =>
    have fits : Fits (finish b₄.source b₄.draft).code s := by
      refine fits_finish ?_ (added ▸ fit)
      rw [told, around_, Draft.told, captured₁]
      rfl
    obtain ⟨_, _, ⟨⟩, run⟩ := bind_ok run
    obtain ⟨_, _, ⟨⟩, run⟩ := bind_ok run
    obtain ⟨pc, b₅, emitted, run⟩ := bind_ok run
    have same := (calm_emit _ _ _ _ emitted).trans (calm_toNext _ _ _ _ run)
    obtain ⟨outer, vars, active, scopes, captures, children⟩ := same
    have captured : b'.draft.captured = d'.captured := by rw [Draft.captured, captures, Draft.captured]; rfl
    have shape_ : b'.draft.shape = d'.shape := by rw [Draft.shape, vars, active, scopes]; rfl
    refine ⟨shape_.trans shape', ⟨?_, ?_, ⟨[_], ?_, .cons fits .nil⟩, ?_⟩, ?_⟩
    · rw [Draft.told, captured]
      exact told'
    · rw [outer]
      exact refers'
    · rw [children, ← children']
      exact Array.toList_push
    · rw [outer]
      have inside := sound.2.2
      unfold Sound at inside ⊢
      rw [captured]
      exact inside
    · exact (Operand.gives_toNext _ _ _ _ run).meets

theorem calm_counted (f : Draft → Nat) : Calm (change fun d => { d with params := f d }) :=
  calm_change fun _ => ⟨rfl, rfl, rfl, rfl, rfl⟩

theorem walks_body {params : List Bytes} {isVararg : Bool} {block : List Stat}
    (k : BlockWalks block) :
    BodyWalks (.mk params isVararg block) := by
  intro Δ p isMethod line b v b' sound outer shape run
  obtain ⟨_, b₁, opened, run⟩ := bind_ok (f := fun _ => _) run
  obtain ⟨around₁, shape₁, captured₁, children₁⟩ := openFunction_ok opened
  have sound₁ : Sound (b₁.draft :: b₁.outer) := by
    rw [around₁, Sound, captured₁]
    exact ⟨nofun, nofun, sound⟩
  subst outer shape
  -- What is written from here on is the function inside, which has no variables yet; the
  -- function around it waits as the first of those around.
  let s : Site := ⟨b.draft.shape.visible ++ around b.outer, isMethod, .mk params isVararg block⟩
  refine (?_ : Leads b₁ bare.opened [] [] _ (Nested b s)) b₁ v b' (effect_refl sound₁ rfl rfl rfl) shape₁ run
  refine calm_advance.leads fun _ => ?_
  extract_lets ends behind
  have full : (bare.opened.extend (Bindings.declared (receiver isMethod ++ params))).Full :=
    full_bare.opened.extend
  have outer₁ : around b₁.outer = b.draft.shape.visible ++ around b.outer := congrArg around around₁
  have body := k (b.draft.shape.visible ++ around b.outer) _ full
  rw [full_bare.opened.visible_extend, Shape.past_unbound (receiver isMethod ++ params) _ full_bare.opened (by
    intro n; simp [Bindings.declared, Binding.variable, or_comm]), Shape.past_bare, Shape.extend_extend,
    show bare.opened.visible = [] from rfl, List.append_nil] at body
  have ended : ∀ u, Leads b₁ (bare.opened.extend (Bindings.declared (receiver isMethod ++ params))) [] [] (ends u)
      (Nested b s) := by
    intro u
    refine calm_draft.leads fun d => (calm_reserve _).leads fun _ => calm_advance.leads fun _ =>
      Walks.leads outer₁ body fun _ _ => calm_advance.leads fun _ => ?_
    exact leads_closeFunction (s := s) around₁ captured₁ children₁ rfl
  have begun : ∀ u, Leads b₁ (bare.opened.extend (Bindings.declared (receiver isMethod))) [] [] (behind u)
      (Nested b s) := by
    intro u
    refine (shapes_declareParams isVararg params).leads fun _ =>
      (shapes_activateParams params).leads fun _ => ?_
    rw [Shape.extend_extend, ← declared_append]
    refine (calm_counted Draft.active).leads fun _ => ?_
    split
    · exact calm_setVararg.leads fun _ => ended ⟨⟩
    · exact ended ⟨⟩
  cases isMethod with
  | true => exact (shapes_declare (ofText "self")).leads fun _ => (shapes_activateParams [ofText "self"]).leads fun _ => begun ⟨⟩
  | false =>
    have plain := begun ⟨⟩
    rwa [show Bindings.declared (receiver false) = [] from rfl, Shape.extend_nil] at plain

/-! ## All parts of a program -/

mutual

/-- The walk over an expression does what the tree tells. -/
theorem exprWalks : ∀ e : Expr, ExprWalks e
  | .nil => walks_nil
  | .true => walks_true
  | .false => walks_false
  | .number n => walks_number n
  | .str s => walks_str s
  | .vararg => walks_vararg
  | .function body => walks_functionExpr (bodyWalks body)
  | .table items trailing => walks_table (itemsWalk items) trailing
  | .name n => walks_name n
  | .paren e => walks_paren (exprWalks e)
  | .field e name => walks_field (exprWalks e) name
  | .index e key => walks_index (exprWalks e) (exprWalks key)
  | .call e args => walks_call (exprWalks e) (argumentsWalk args)
  | .method e name args => walks_method (exprWalks e) name (argumentsWalk args)
  | .unary op e => walks_unary op (exprWalks e)
  | .binary op l r => walks_binary op (exprWalks l) (exprWalks r)
  | .malformed fault => walks_malformed fault
  | .broken _ fault => walks_broken fault

/-- The walk over expressions does what the tree tells. -/
theorem exprsWalk : ∀ es : List Expr, ExprsWalk es
  | [] => walks_exprsNil
  | e :: es => walks_exprsCons (exprWalks e) (exprsWalk es)

/-- The walk over the targets of an assignment does what the tree tells. -/
theorem targetsWalk : ∀ es : List Expr, TargetsWalk es
  | [] => walks_targetsNil
  | e :: es => walks_targetsCons (exprWalks e) (targetsWalk es)

/-- The walk over arguments does what the tree tells. -/
theorem argumentsWalk : ∀ args : Arguments, ArgumentsWalk args
  | .parens es => walks_parens (exprsWalk es)
  | .str s => walks_strArgument s
  | .table items trailing => walks_tableArgument (itemsWalk items) trailing
  | .malformed fault => walks_malformedArguments fault

/-- The walk over a field of a table does what the tree tells. -/
theorem itemWalks : ∀ f : Item, ItemWalks f
  | .positional e => walks_positional (exprWalks e)
  | .named name e => walks_named name (exprWalks e)
  | .keyed key e => walks_keyed (exprWalks key) (exprWalks e)

/-- The walk over the fields of a table does what the tree tells. -/
theorem itemsWalk : ∀ items : List Item, ItemsWalk items
  | [] => walks_itemsNil
  | f :: items => walks_itemsCons (itemWalks f) (itemsWalk items)

/-- The walk over a function does what the tree tells. -/
theorem bodyWalks : ∀ body : Body, BodyWalks body
  | .mk _ _ block => walks_body (.of_all (allWalk block))

/-- The walk over each statement of a block does what the tree tells. -/
theorem allWalk : ∀ (block : List Stat), ∀ s ∈ block, StatWalks s
  | [] => nofun
  | s :: rest => List.forall_mem_cons.2 ⟨statWalks s, allWalk rest⟩

/-- The walk over alternatives does what the tree tells. -/
theorem clausesWalk : ∀ cs : List Clause, ClausesWalk cs
  | [] => walks_clausesNil
  | .mk cond block :: cs => walks_clausesCons (exprWalks cond) (allWalk block) (clausesWalk cs)

/-- The walk over a statement does what the tree tells. -/
theorem statWalks : ∀ s : Stat, StatWalks s
  | .empty => walks_empty
  | .local names (some es) => walks_local names (exprsWalk es)
  | .local names none => walks_localPlain names
  | .assign targets values => walks_assign (targetsWalk targets) (exprsWalk values)
  | .call e => walks_callStat (exprWalks e)
  | .block block => walks_block (.of_all (allWalk block))
  | .while cond block => walks_while (exprWalks cond) (.of_all (allWalk block))
  | .repeat block cond => walks_repeat (.of_all (allWalk block)) (exprWalks cond)
  | .ite cs (some block) => walks_ite (clausesWalk cs) (.of_all (allWalk block))
  | .ite cs none => walks_itePlain (clausesWalk cs)
  | .numericFor name first last (some step) block =>
    walks_numericFor name (exprWalks first) (exprWalks last) (exprWalks step) (.of_all (allWalk block))
  | .numericFor name first last none block =>
    walks_numericForOne name (exprWalks first) (exprWalks last) (.of_all (allWalk block))
  | .genericFor names values block => walks_genericFor names (exprsWalk values) (.of_all (allWalk block))
  | .function _ _ _ b => walks_function (bodyWalks b)
  | .localFunction name b => walks_localFunction name (bodyWalks b)
  | .return values semicolon => walks_return semicolon (exprsWalk values)
  | .break => walks_break
  | .goto name => walks_goto name
  | .label name following last => walks_label name last (.of_all (allWalk following))
  | .malformed fault => walks_malformedStat fault

end

/-- The code of a text is what the tree tells of it. -/
theorem main_fits {block : List Stat} {source : Bytes} {tokens : Array Token} {c : Compiled}
    {b : Builder}
    (run : main block ⟨source, tokens, 0, Draft.start 0, []⟩ = .ok (c, b)) :
    Fits c.code (topSite block) := by
  obtain ⟨_, b₀, opened, run⟩ := bind_ok (f := fun _ => _) run
  obtain ⟨⟩ := opened
  obtain ⟨_, b₁, captures, run⟩ := bind_ok run
  have outer₁ : b₁.outer = [] := by cases captures; rfl
  have shape₁ : b₁.draft.shape = bare.opened := by cases captures; rfl
  have captured₁ : b₁.draft.captured = [envName.bytes] := by cases captures; rfl
  have children₁ : b₁.draft.children.toList = [] := by cases captures; rfl
  have sound₁ : Sound (b₁.draft :: b₁.outer) := by
    rw [outer₁, Sound, captured₁]
    refine ⟨fun n mem => ?_, List.mem_singleton_self _, trivial⟩
    rw [List.mem_singleton.1 mem, around, holds_outermost, beq_self_eq_true]
  have body := BlockWalks.of_all (allWalk block) .outermost bare.opened full_bare.opened
  rw [Shape.past_bare, show bare.opened.visible = [] from rfl, List.nil_append] at body
  refine (?_ : Leads b₁ bare.opened [] [] _ fun c _ => Fits c.code (topSite block)) b₁ c b
    (effect_refl sound₁ rfl rfl rfl) shape₁ run
  refine calm_setVararg.leads fun _ => calm_checkReadable.leads fun _ =>
    Walks.leads (congrArg around outer₁) body fun _ _ => ?_
  intro b₂ c b' effect shape closed
  obtain ⟨b₃, ⟨told, -, ⟨new, added, fit⟩, -⟩, rfl, -⟩ := closeFunction_ok effect shape closed
  rw [children₁, List.nil_append] at added
  refine fits_finish ?_ (added ▸ fit)
  have told₁ : b₁.draft.told = [] := by rw [Draft.told, captured₁]; simp
  have free : (topSite block).body.free (topSite block).isMethod = blockFree block [] := by
    simp [topSite, Body.free, receiver, unbound]
  rw [told, told₁, outer₁, free]
  rfl

end Gen

/-- Compiled code is what the tree of the text tells. -/
theorem Chunk.compile_fits {label text : Bytes} {room : Nat} {chunk : Chunk}
    (compiled : Chunk.compile label text room = .ok chunk) :
    Fits chunk (topSite (Tree.ofTokens (Token.scan text) room)) := by
  simp only [Chunk.compile] at compiled
  split at compiled
  · next c b run =>
    cases compiled
    exact Gen.main_fits run
  · cases compiled

variable {whole f : FunctionCode} {top s : Site}

theorem Fits.of_standsAt (fits : Fits whole top) (stands : StandsAt whole top f s) : Fits f s := by
  induction stands with
  | whole => exact fits
  | inner _ child site ih =>
    obtain ⟨-, -, inner⟩ := ih
    exact inner _ _ _ child site

/-- Every function that is written in a text stands at a site. -/
theorem Fits.exists_site (fits : Fits whole top) (within : f.Within whole) :
    ∃ s, StandsAt whole top f s := by
  have goes : ∀ {g : FunctionCode} {t : Site}, f.Within g → StandsAt whole top g t → ∃ s,
    StandsAt whole top f s := by
    intro g t within
    induction within generalizing t with
    | self => exact fun stands => ⟨t, stands⟩
    | @inner h k mem _ ih =>
      intro stands
      obtain ⟨-, many, -⟩ := fits.of_standsAt stands
      obtain ⟨i, inside, child⟩ := List.getElem_of_mem mem
      exact ih (stands.inner (i := i) (t := t.inner.get ⟨i,
        many ▸ inside⟩) (child ▸ List.getElem?_eq_getElem inside)
        (List.getElem?_eq_getElem _))
  exact goes within .whole

end NpcDialog.Lua
