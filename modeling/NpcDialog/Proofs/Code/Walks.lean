import NpcDialog.Proofs.Code.Forecasts
import NpcDialog.Proofs.Code.Resolution

/-!
# Walks over a tree

A step of the compiler that walks over a part of a program takes the function that is
written from one shape to another, refers to names and writes functions on the way.

* `Fits` — a function, with those inside it, is what the tree tells of a site.
* `Gen.Effect` — what comes of names that are referred to and functions that are
  written.
* `Gen.Walks` — a step with such an effect; `Gen.walks_bind` puts two in a row.
* `Gen.Shapes` — a step that changes no more than the shape, such as declaring a
  variable or leaving a block.
* `Gen.walks_nameOperand` — the walk over a name.
-/

namespace NpcDialog.Lua

open Bytes (ofText)

/-- The captured variables of a function that are not called like the environment. -/
def FunctionCode.toldNames (f : FunctionCode) : List Bytes :=
  f.notes.captureNames.toList.filter (· != envName.bytes)

/-- Is a function, with those inside it, what the tree tells of a site? -/
inductive Fits : FunctionCode → Site → Prop where
  | intro {f : FunctionCode} {s : Site} (names : f.toldNames = s.capturedNames)
      (many : f.children.length = s.inner.length)
      (inner : ∀ (i : Nat) (g : FunctionCode) (t : Site), f.children[i]? = some g →
        s.inner[i]? = some t → Fits g t) : Fits f s

/-- Functions and the sites where they stand, one by one. -/
inductive FitAll : List Compiled → List Site → Prop where
  | nil : FitAll [] []
  | cons {c : Compiled} {s : Site} {cs : List Compiled} {ss : List Site} (first : Fits c.code s)
      (rest : FitAll cs ss) : FitAll (c :: cs) (s :: ss)

theorem FitAll.append {cs ds : List Compiled} {ss ts : List Site} (h : FitAll cs ss)
    (k : FitAll ds ts) :
    FitAll (cs ++ ds) (ss ++ ts) := by
  induction h with
  | nil => exact k
  | cons first _ ih => exact .cons first ih

theorem FitAll.length_eq {cs : List Compiled} {ss : List Site} (h : FitAll cs ss) :
    cs.length = ss.length := by
  induction h with
  | nil => rfl
  | cons _ _ ih => rw [List.length_cons, List.length_cons, ih]

theorem FitAll.get {cs : List Compiled} {ss : List Site} (h : FitAll cs ss) {i : Nat}
    {g : FunctionCode} {t : Site}
    (code : (cs.map Compiled.code)[i]? = some g) (site : ss[i]? = some t) : Fits g t := by
  induction h generalizing i with
  | nil => cases code
  | cons first _ ih =>
    cases i with
    | zero => cases code; cases site; exact first
    | succ i => exact ih code site

namespace Gen

variable {α β : Type}

/-- What comes of names that are referred to and functions that are written. -/
structure Effect (names : List Bytes) (sites : List Site) (b b' : Builder) : Prop where
  told : b'.draft.told = extended (around b.outer) b.draft.told names
  outer : Refers names b.outer b'.outer
  children : ∃ new, b'.draft.children.toList = b.draft.children.toList ++ new ∧ FitAll new sites
  sound : Sound (b'.draft :: b'.outer)

/-- What two steps in a row refer to and write is what the first one does and then what
the second one does. -/
theorem Effect.trans {N M : List Bytes} {S T : List Site} {b b' b'' : Builder} (h : Effect N S b b')
    (k : Effect M T b' b'') :
    Effect (N ++ M) (S ++ T) b b'' := by
  obtain ⟨new, added, fit⟩ := h.children
  obtain ⟨new', added', fit'⟩ := k.children
  refine ⟨?_, h.outer.trans k.outer, ⟨new ++ new', ?_, fit.append fit'⟩, k.sound⟩
  · rw [k.told, h.told, h.outer.around_eq, extended_append]
  · rw [added', added, List.append_assoc]

/-- A step that takes a function from one shape to another, refers to names and writes
functions on the way, and has a result of a kind. -/
def Walks (Δ : Bindings) (p : Shape) (a : Gen α) (q : Shape) (N : List Bytes) (S : List Site)
    (Q : α → Prop) : Prop :=
  ∀ b v b', Sound (b.draft :: b.outer) → around b.outer = Δ → b.draft.shape = p →
    a b = .ok (v, b') →
    b'.draft.shape = q ∧ Effect N S b b' ∧ Q v

variable {Δ : Bindings} {p q r : Shape} {N M : List Bytes} {S T : List Site} {Q : α → Prop}
    {R : β → Prop}

/-- Two walks in a row.  The names and the functions of both follow each other. -/
theorem walks_bind {x : Gen α} {f : α → Gen β} (first : Walks Δ p x q N S Q)
    (next : ∀ v, Q v → Walks Δ q (f v) r M T R) : Walks Δ p (x >>= f) r (N ++ M) (S ++ T) R := by
  intro b w b'' sound outer shape run
  obtain ⟨v, b', ran, goes⟩ := bind_ok run
  obtain ⟨shape', effect, known⟩ := first b v b' sound outer shape ran
  obtain ⟨shape'', effect', known'⟩ :=
    next v known b' w b'' effect.sound (effect.outer.around_eq.trans outer) shape' goes
  exact ⟨shape'', effect.trans effect', known'⟩

/-- A walk behind a step that refers to nothing. -/
theorem walks_then {x : Gen α} {f : α → Gen β} (first : Walks Δ p x q [] [] Q)
    (next : ∀ v, Q v → Walks Δ q (f v) r M T R) :
    Walks Δ p (x >>= f) r M T R := walks_bind first next

/-- A walk in front of a step that refers to nothing. -/
theorem walks_last {x : Gen α} {f : α → Gen β} (first : Walks Δ p x q N S Q)
    (next : ∀ v, Q v → Walks Δ q (f v) r [] [] R) : Walks Δ p (x >>= f) r N S R := by
  have whole := walks_bind first next
  rwa [List.append_nil, List.append_nil] at whole

/-- Less may be asked of the result. -/
theorem walks_imp {x : Gen α} {P : α → Prop} (h : Walks Δ p x q N S Q) (imp : ∀ v, Q v → P v) :
    Walks Δ p x q N S P :=
  fun b v b' sound outer shape run =>
    let ⟨shape', effect, known⟩ := h b v b' sound outer shape run
    ⟨shape', effect, imp v known⟩

/-- A step that keeps the captured variables and the functions refers to nothing. -/
theorem effect_refl {b b' : Builder} (sound : Sound (b.draft :: b.outer))
    (outer : b'.outer = b.outer)
    (captures : b'.draft.captures = b.draft.captures)
    (children : b'.draft.children = b.draft.children) :
    Effect [] [] b b' := by
  have captured : b'.draft.captured = b.draft.captured := by rw [Draft.captured, Draft.captured,
    captures]
  refine ⟨by rw [Draft.told, Draft.told, captured]; rfl, outer ▸ .refl _, ⟨[], by simp [children], .nil⟩, ?_⟩
  rw [outer]
  unfold Sound
  rw [captured]
  exact sound

/-- A step that only changes the shape of a function. -/
def Shapes (p : Shape) (a : Gen α) (q : Shape) : Prop :=
  ∀ b v b', b.draft.shape = p → a b = .ok (v, b') → b'.outer = b.outer ∧
    b'.draft.captures = b.draft.captures ∧
    b'.draft.children = b.draft.children ∧ b'.draft.shape = q

/-- A calm step keeps the shape. -/
theorem Calm.shapes {a : Gen α} (calm : Calm a) (p : Shape) : Shapes p a p := by
  intro b v b' shape run
  obtain ⟨outer, vars, active, scopes, captures, children⟩ := calm b v b' run
  refine ⟨outer, captures, children, ?_⟩
  rw [← shape, Draft.shape, Draft.shape, vars, active, scopes]

/-- Two changes of the shape in a row. -/
theorem shapes_bind {x : Gen α} {f : α → Gen β} (first : Shapes p x q)
    (next : ∀ v, Shapes q (f v) r) :
    Shapes p (x >>= f) r := by
  intro b w b'' shape run
  obtain ⟨v, b', ran, goes⟩ := bind_ok run
  obtain ⟨outer, captures, children, shape'⟩ := first b v b' shape ran
  obtain ⟨outer', captures', children', shape''⟩ := next v b' w b'' shape' goes
  exact ⟨outer'.trans outer, captures'.trans captures, children'.trans children, shape''⟩

theorem shapes_next {x : Gen α} {f : α → Gen β} (first : Calm x) (next : ∀ v, Shapes p (f v) r) :
    Shapes p (x >>= f) r := shapes_bind (first.shapes p) next

/-- To change only the shape is a walk that refers to nothing. -/
theorem Shapes.walks {a : Gen α} (h : Shapes p a q) (gives : Gives a Q) :
    Walks Δ p a q [] [] Q := by
  intro b v b' sound _ shape run
  obtain ⟨outer, captures, children, shape'⟩ := h b v b' shape run
  exact ⟨shape', effect_refl sound outer captures children, gives b v b' run⟩

/-- A walk behind a change of the shape. -/
theorem Shapes.step {x : Gen α} {f : α → Gen β} (first : Shapes p x q)
    (next : ∀ v, Walks Δ q (f v) r M T R) :
    Walks Δ p (x >>= f) r M T R :=
  walks_then (first.walks (Q := fun _ => True) fun _ _ _ _ => trivial) fun v _ => next v

/-- A calm step is a walk that refers to nothing and keeps the shape. -/
theorem Calm.walks {a : Gen α} (calm : Calm a) (gives : Gives a Q) : Walks Δ p a p [] [] Q :=
  (calm.shapes p).walks gives

/-- A walk behind a calm step. -/
theorem Calm.step {x : Gen α} {f : α → Gen β} (first : Calm x)
    (next : ∀ v, Walks Δ p (f v) r M T R) :
    Walks Δ p (x >>= f) r M T R := (first.shapes p).step next

/-- A walk behind a calm step of whose result something is known. -/
theorem Calm.stepGives {x : Gen α} {f : α → Gen β} (first : Calm x) (gives : Gives x Q)
    (next : ∀ v, Q v → Walks Δ p (f v) r M T R) : Walks Δ p (x >>= f) r M T R :=
  walks_then (first.walks gives) next

theorem gives_true {a : Gen α} : Gives a fun _ => True := fun _ _ _ _ => trivial

/-! ## Names -/

/-- A fault is no result. -/
theorem faultNear_fails {m : Bytes} {b b' : Builder} {v : α} (run : faultNear m b = .ok (v, b')) :
    False := by
  cases run

/-- What is known of the operand of a name. -/
def Looked (Γ : Bindings) (name : Name) (found : Option Operand) : Prop :=
  match found with
  | none => Γ.named name.bytes = none
  | some v => (∃ c, (Γ.named name.bytes).map Binding.constant = some (some c) ∧ v = Operand.plain (.compileTime c name.bytes)) ∨
      ((Γ.named name.bytes).map Binding.constant = some none ∧ v.Meets .unknown)

/-- To look up a name refers to it, unless the function itself has a variable of that
name.  The cases are what the name resolves to. -/
theorem walks_lookup (name : Name) :
    Walks Δ p (lookup name) p (p.past [name.bytes]) [] (Looked (p.visible ++ Δ) name) := by
  intro b v b' sound outer shape run
  unfold lookup at run
  obtain ⟨_, _, ⟨⟩, run⟩ := bind_ok run
  cases resolved : b.draft.resolve name true b.outer with
  | error line =>
    simp only [resolved] at run
    exact (faultNear_fails run).elim
  | ok found =>
    obtain ⟨d, outer', r⟩ := found
    obtain ⟨⟨refers, sound'⟩, means, -⟩ := resolve_refers sound resolved
    simp only [resolved] at run
    rw [around, outer, shape] at means
    cases refers with
    | cons shape' children kept told refers =>
      have effect : Effect (p.past [name.bytes]) [] b { b with draft := d, outer := outer' } := by
        rw [← shape]
        exact ⟨told, refers, ⟨[], by simp [children], .nil⟩, sound'⟩
      obtain ⟨_, _, ⟨⟩, run⟩ := bind_ok run
      cases r with
      | global => cases run; exact ⟨shape'.trans shape, effect, means⟩
      | compileTime c => cases run; exact ⟨shape'.trans shape, effect, .inl ⟨c, means, rfl⟩⟩
      | «variable» reg i => cases run; exact ⟨shape'.trans shape, effect, .inr ⟨means, ⟨rfl, rfl, rfl, rfl⟩⟩⟩
      | captured u => cases run; exact ⟨shape'.trans shape, effect, .inr ⟨means, ⟨rfl, rfl, rfl, rfl⟩⟩⟩

/-- The name of the environment is captured from the beginning on, so it is never
captured anew. -/
theorem extended_env {Γ : Bindings} {captured names : List Bytes}
    (all : ∀ n ∈ names, n = envName.bytes) :
    extended Γ captured names = captured := by
  induction names with
  | nil => rfl
  | cons n rest ih =>
    obtain rfl := all n (List.mem_cons_self ..)
    rw [extended]
    simpa using ih fun m mem => all m (List.mem_cons_of_mem _ mem)

/-- The same for all functions around. -/
theorem refers_env {names : List Bytes} {ds ds' : List Draft} (h : Refers names ds ds')
    (all : ∀ n ∈ names, n = envName.bytes) : Refers [] ds ds' := by
  induction h with
  | nil => exact .nil
  | @cons names d d' ds ds' shape children kept told _ ih =>
    have past : ∀ n ∈ d.shape.past names, n = envName.bytes := fun n mem =>
      all n ((List.mem_filter.1 mem).1)
    rw [extended_env past] at told
    exact .cons shape children kept told (ih past)

/-- The environment may be referred to unnoticed. -/
theorem walks_env {a : Gen α} (h : Walks Δ p a q N S Q) (all : ∀ n ∈ N, n = envName.bytes) :
    Walks Δ p a q [] S Q := by
  intro b v b' sound outer shape run
  obtain ⟨shape', ⟨told, refers, children, sound'⟩, known⟩ := h b v b' sound outer shape run
  rw [extended_env all] at told
  exact ⟨shape', ⟨told, refers_env refers all, children, sound'⟩, known⟩

/-- Is an operand what the tree tells of an expression? -/
def Result (Γ : Bindings) (e : Expr) (v : Operand) : Prop :=
  v.Foretold (e.forecast Γ) ∧ v.const? = e.constant? Γ

/-- A name is a variable or else a field of the environment, which is looked up after
it. -/
theorem walks_nameOperand (n : Bytes) :
    Walks Δ p (nameOperand n) p (p.past [reference n]) [] (Result (p.visible ++ Δ) (.name n)) := by
  unfold nameOperand
  refine walks_last (walks_lookup (.ofBytes n)) fun found looked => ?_
  have called : (Name.ofBytes n).bytes = reference n := rfl
  cases found with
  | some v =>
    refine (calm_pure v).walks (gives_pure ?_)
    rcases looked with ⟨c, known, rfl⟩ | ⟨known, meets⟩
    · have constant : (p.visible ++ Δ).constant? (reference n) = some c := by
        rw [called, Option.map_eq_some_iff] at known
        obtain ⟨w, there, is⟩ := known
        rw [Bindings.constant?, there, Option.bind_some, is]
      refine ⟨⟨?_, nofun, ?_, ?_⟩, ?_⟩
      all_goals simp only [Expr.forecast, Expr.constant?, constant]; rfl
    · have constant : (p.visible ++ Δ).constant? (reference n) = none := by
        rw [called, Option.map_eq_some_iff] at known
        obtain ⟨w, there, is⟩ := known
        rw [Bindings.constant?, there, Option.bind_some, is]
      refine ⟨?_, ?_⟩
      · simp only [Expr.forecast, constant]
        exact meets.foretold
      · simp only [Expr.constant?, constant]
        exact meets.const?
  | none =>
    have constant : (p.visible ++ Δ).constant? (reference n) = none := by
      have looked : (p.visible ++ Δ).named (reference n) = none := looked
      rw [Bindings.constant?, looked]
      rfl
    have env : Walks Δ p (lookup envName) p [] [] fun _ => True :=
      walks_imp (walks_env (walks_lookup envName) fun m mem =>
        List.mem_singleton.1 ((List.mem_filter.1 mem).1))
        fun _ _ => trivial
    refine walks_then env fun t _ => (calm_toAnyOrCaptured _).stepGives (Operand.gives_toAnyOrCaptured _) fun t place => ?_
    refine (calm_index _ _).walks (gives_imp (Operand.gives_index place _) fun v meets => ⟨?_, ?_⟩)
    · simp only [Expr.forecast, constant]
      exact meets.foretold
    · simp only [Expr.constant?, constant]
      exact meets.const?

/-! ## Shapes -/

/-- A change of a function under construction that keeps the captured variables and the
functions inside. -/
theorem shapes_change {f : Draft → Draft} (known : ∀ d, d.shape = p → (f d).captures = d.captures ∧
    (f d).children = d.children ∧ (f d).shape = q) : Shapes p (change f) q := by
  rintro b _ _ shape ⟨⟩
  obtain ⟨captures, children, shape'⟩ := known b.draft shape
  exact ⟨rfl, captures, children, shape'⟩

/-- A variable is declared behind all others. -/
theorem shapes_declare (name : Bytes) :
    Shapes p (declare name .regular) (p.declare (.variable name)) := by
  have grows : Shapes p (change fun d => { d with vars := d.vars.push ⟨name, .regular, 0, 0⟩ })
      (p.declare (.variable name)) :=
    shapes_change fun d shape => ⟨rfl, rfl, by
      subst shape
      simp [Draft.shape, Shape.declare, Variable.binding, Binding.variable]⟩
  unfold declare
  refine shapes_next calm_draft fun d => ?_
  split
  · refine shapes_next (calm_faultLimit _ _) fun _ => grows
  · exact grows

/-- A change that a function does not see is not seen in the list of its values. -/
theorem map_modify {γ : Type} (l : Array Variable) (i : Nat) (f : Variable → Variable)
    (g : Variable → γ)
    (same : ∀ v, g (f v) = g v) : (l.modify i f).toList.map g = l.toList.map g := by
  apply List.ext_getElem?
  intro k
  simp only [List.getElem?_map, Array.getElem?_toList, Array.getElem?_modify]
  split
  · cases l[k]? <;> simp [same]
  · rfl

/-- Declared variables come into scope.  What a round keeps is kept by all of them. -/
theorem shapes_activate (n : Nat) : Shapes p (activate n) (p.activate n) := by
  unfold activate
  refine shapes_next calm_variableLevel fun level => ?_
  intro b v b' shape run
  refine natForM_ok (P := fun k c => c.outer = b.outer ∧ c.draft.captures = b.draft.captures ∧
    c.draft.children = b.draft.children ∧ c.draft.shape = p.activate k) ?_ ⟨rfl, rfl, rfl,
      shape⟩ run
  rintro i h k c _ _ ⟨outer, captures, children, shape⟩ ⟨⟩
  refine ⟨outer, captures, children, ?_⟩
  have vars : c.draft.vars.toList.map Variable.binding = p.declared := congrArg Shape.declared shape
  have active : c.draft.active = p.active + k := congrArg Shape.active shape
  have scopes : c.draft.scopes.map Scope.vars = p.scopes := congrArg Shape.scopes shape
  simp only [Draft.shape, Shape.activate]
  have same := map_modify c.draft.vars c.draft.active
    (fun v => { v with register := level + i, note :=
      c.draft.locals.size }) Variable.binding fun _ => rfl
  rw [same, vars, active, scopes, Nat.add_assoc]

/-- A block remembers how many variables are in scope where it begins. -/
theorem shapes_openScope (isLoop : Bool) :
    Shapes p (openScope isLoop) { p with scopes := p.active :: p.scopes } :=
  shapes_change fun d shape => ⟨rfl, rfl, by subst shape; rfl⟩

/-- Variables go out of scope, the last ones first. -/
theorem shapes_deactivate (n : Nat) : Shapes p (deactivate n) ⟨p.declared.take n, n, p.scopes⟩ :=
  shapes_change fun d shape => ⟨rfl, rfl, by
    subst shape
    simp [Draft.shape]⟩

theorem calm_faultNoLabel (j : JumpMark) : Calm
    (faultNoLabel j : Gen α) := by unfold faultNoLabel; grind

/-- At the end of a block the variables in scope are those at its beginning.  Labels and
jumps do not matter, so all the ways in which it can end come to the same. -/
theorem shapes_closeScope {s : Nat} {rest : List Nat} (scopes : p.scopes = s :: rest) :
    Shapes p closeScope ⟨p.declared.take s, s, rest⟩ := by
  intro b v b' shape run
  unfold closeScope at run
  obtain ⟨_, _, ⟨⟩, run⟩ := bind_ok run
  have shown : b.draft.scopes.map Scope.vars = s :: rest :=
    (congrArg Shape.scopes shape).trans scopes
  cases there : b.draft.scopes with
  | nil => rw [there] at shown; cases shown
  | cons scope outer =>
    rw [there, List.map_cons, List.cons.injEq] at shown
    obtain ⟨rfl, rfl⟩ := shown
    simp only [there] at run
    have ends : ∀ (labels : Draft → Array LabelMark) (level : Nat) (rest : Draft →
      Gen Unit) (calm : ∀ d, Calm (rest d)),
        Shapes ⟨p.declared.take scope.vars, scope.vars, p.scopes⟩ (do
          change fun d => { d with free := level, labels := labels d, scopes := outer }
          rest (← draft)) ⟨p.declared.take scope.vars, scope.vars, outer.map Scope.vars⟩ := by
      intro labels level rest calm
      refine shapes_bind (shapes_change fun d shape => ⟨rfl, rfl, ?_⟩) fun _ =>
        shapes_next calm_draft fun d => (calm d).shapes _
      have vars := congrArg Shape.declared shape
      have active := congrArg Shape.active shape
      simp only [Draft.shape] at vars active ⊢
      rw [vars, active]
    refine (shapes_bind (shapes_deactivate _) fun _ => ?_ : Shapes p _ _) b v b' shape run
    split
    all_goals
      refine shapes_next (by first | exact calm_makeLabel _ _ _ | exact calm_pure _) fun closed => ?_
      split
      all_goals
        first
          | refine shapes_next (calm_discard (calm_emit _)) fun _ => ends _ _ _ fun d => ?_
          | refine ends _ _ _ fun d => ?_
        split
        · split
          · exact calm_faultNoLabel _
          · exact calm_pure _
        · exact calm_jumps _

end Gen
end NpcDialog.Lua
