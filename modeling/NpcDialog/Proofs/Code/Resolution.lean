import NpcDialog.Proofs.Code.Scopes

/-!
# Names of the functions under construction

A name is looked for in the function that is written, and then in those around it.  A
variable that is found further out becomes a captured variable of each function in
between.  What is found is what the tree tells, and each function captures what it has
to, each variable once and in the order in which the names are referred to.

* `Shape` — the variables of a function under construction.
* `around` — the variables in scope in functions under construction.
* `extended` — the captured variables after more names were referred to.
* `Refers` — functions before and after names were referred to in the innermost.
* `resolve_refers` — what comes of one name.
-/

namespace NpcDialog.Lua

/-- What is known of a variable under construction to those that look for a name. -/
def Variable.binding (v : Variable) : Binding :=
  ⟨v.name, match v.kind with
    | .compileTime c => some c
    | _ => none⟩

/-- The variables of a function under construction, the blocks around the place that is
written, and which of the variables are in scope. -/
structure Shape where
  declared : List Binding
  active : Nat
  scopes : List Nat

/-- The variables in scope, the innermost first. -/
def Shape.visible (p : Shape) : Bindings := (p.declared.take p.active).reverse

/-- Names that are none of the variables in scope. -/
def Shape.past (p : Shape) (names : List Bytes) :
    List Bytes := unbound (p.visible.map Binding.name) names

/-- A shape with one more variable, which is not in scope yet. -/
def Shape.declare (p : Shape) (v : Binding) : Shape := { p with declared := p.declared ++ [v] }

/-- A shape with more variables in scope. -/
def Shape.activate (p : Shape) (n : Nat) : Shape := { p with active := p.active + n }

namespace Draft

/-- What a function under construction looks like to those that look for a name. -/
def shape (d : Draft) : Shape := ⟨d.vars.toList.map Variable.binding, d.active, d.scopes.map Scope.vars⟩

/-- The names of the captured variables. -/
def captured (d : Draft) : List Bytes := d.captures.list.toList.map (Name.bytes ∘ Capture.name)

/-- Those that are not called like the environment. -/
def told (d : Draft) : List Bytes := d.captured.filter (· != envName.bytes)

end Draft

/-- The variables in scope in functions under construction, the innermost first. -/
def around : List Draft → Bindings
  | [] => .outermost
  | d :: ds => d.shape.visible ++ around ds

/-- Names that come to those that are captured, when others are referred to. -/
def extended (Γ : Bindings) (captured : List Bytes) : List Bytes → List Bytes
  | [] => captured
  | n :: rest =>
    extended Γ (if Γ.holds n && n != envName.bytes && !captured.contains n then captured ++ [n] else captured) rest

theorem extended_append (Γ : Bindings) (captured l k : List Bytes) :
    extended Γ captured (l ++ k) = extended Γ (extended Γ captured l) k := by
  induction l generalizing captured with
  | nil => rfl
  | cons n l ih => exact ih _

/-- Functions under construction, before and after names were referred to in the
innermost. -/
inductive Refers : List Bytes → List Draft → List Draft → Prop where
  | nil {names : List Bytes} : Refers names [] []
  | cons {names : List Bytes} {d d' : Draft} {ds ds' : List Draft} (shape : d'.shape = d.shape)
      (children : d'.children = d.children) (kept : ∀ n ∈ d.captured, n ∈ d'.captured)
      (told : d'.told = extended (around ds) d.told (d.shape.past names))
      (outer : Refers (d.shape.past names) ds ds') : Refers names (d :: ds) (d' :: ds')

theorem unbound_append (bound l k : List Bytes) :
    unbound bound (l ++ k) = unbound bound l ++ unbound bound k :=
  List.filter_append ..

theorem Shape.past_append (p : Shape) (l k : List Bytes) : p.past (l ++ k) = p.past l ++ p.past k :=
  unbound_append _ l k

namespace Refers

variable {names more : List Bytes} {ds ds' ds'' : List Draft}

theorem around_eq (h : Refers names ds ds') : around ds' = around ds := by
  induction h with
  | nil => rfl
  | cons shape _ _ _ _ ih => rw [around, around, shape, ih]

theorem trans (h : Refers names ds ds') (k : Refers more ds' ds'') :
    Refers (names ++ more) ds ds'' := by
  induction h generalizing more ds'' with
  | nil => cases k; exact .nil
  | @cons names d d' ds ds' shape children kept told outer ih =>
    cases k with
    | cons shape' children' kept' told' outer' =>
      refine .cons (shape'.trans shape) (children'.trans children) (fun n mem =>
        kept' n (kept n mem)) ?_ ?_
      · rw [told', told, outer.around_eq, shape, Shape.past_append, extended_append]
      · rw [shape] at outer'
        rw [Shape.past_append]
        exact ih outer'

theorem refl (ds : List Draft) : Refers [] ds ds := by
  induction ds with
  | nil => exact .nil
  | cons d ds ih => exact .cons rfl rfl (fun _ mem => mem) rfl ih

end Refers

/-- The captured variables of functions under construction are variables of those
around them. -/
def Sound : List Draft → Prop
  | [] => True
  | d :: ds => (∀ n ∈ d.captured, (around ds).holds n = true) ∧
      (match ds with
        | [] => envName.bytes ∈ d.captured
        | p :: _ => ∀ n ∈ d.captured, n ∈ p.shape.visible.map Binding.name ∨ n ∈ p.captured) ∧ Sound ds

theorem Bindings.named_append (Γ Δ : Bindings) (n : Bytes) :
    Bindings.named (Γ ++ Δ) n = (Γ.named n).or (Δ.named n) := by
  simp [Bindings.named, List.find?_append]

theorem Bindings.named_eq_none {Γ : Bindings} {n : Bytes} :
    Γ.named n = none ↔ n ∉ Γ.map Binding.name := by
  simp only [Bindings.named, List.find?_eq_none, List.mem_map, not_exists, not_and, beq_iff_eq]

variable {d : Draft} {ds : List Draft} {n : Bytes}

theorem told_of_mem (mem : n ∈ d.captured) :
    (n != envName.bytes && !d.told.contains n) = false := by
  by_cases env : n = envName.bytes
  · simp [env]
  · simp [Draft.told, mem, env]

theorem extended_one (Γ : Bindings) (captured : List Bytes)
    (none_ : (Γ.holds n && n != envName.bytes && !captured.contains n) = false) :
    extended Γ captured [n] = captured := by
  rw [extended, extended, none_]; rfl

theorem past_one (p : Shape) (n : Bytes) :
    (p.past [n] = [] ∧ n ∈ p.visible.map Binding.name) ∨ (p.past [n] = [n] ∧ n ∉ p.visible.map Binding.name) := by
  by_cases mem : n ∈ p.visible.map Binding.name
  · exact .inl ⟨by simpa [Shape.past, unbound] using mem, mem⟩
  · exact .inr ⟨by simpa [Shape.past, unbound] using mem, mem⟩

/-- Nothing comes of a name that is known in the function around already. -/
theorem refers_known (sound : Sound ds)
    (known : ∀ p rest, ds = p :: rest → n ∈ p.shape.visible.map Binding.name ∨ n ∈ p.captured) :
    Refers [n] ds ds := by
  induction ds with
  | nil => exact .nil
  | cons p rest ih =>
    obtain ⟨held, linked, inner⟩ := sound
    rcases past_one p.shape n with ⟨past, -⟩ | ⟨past, absent⟩
    · exact .cons rfl rfl (fun _ mem => mem) (by rw [past]; rfl) (by rw [past]; exact .refl rest)
    · have mem := (known p rest rfl).resolve_left absent
      refine .cons rfl rfl (fun _ mem => mem) ?_ ?_
      · rw [past, extended_one]
        rw [Bool.and_assoc, told_of_mem mem, Bool.and_false]
      · rw [past]
        refine ih inner ?_
        rintro q others rfl
        exact linked n mem

/-- What a name stands for, in words of the code and of the tree. -/
def Resolution.Means (r : Resolution) (found : Option Binding) : Prop :=
  match r with
  | .global => found = none
  | .compileTime c => found.map Binding.constant = some (some c)
  | .variable _ _ | .captured _ => found.map Binding.constant = some none

/-- Does a name stand for a variable? -/
def Resolution.isVariable : Resolution → Bool
  | .variable _ _ | .captured _ => true
  | _ => false

theorem Draft.shape_visible (d : Draft) : d.shape.visible =
    ((d.vars.toList.take d.active).map Variable.binding).reverse := by
  rw [Shape.visible, Draft.shape, ← List.map_take]

theorem Draft.findVariable_eq (d : Draft) (name : Bytes) (k : Nat) :
    (((d.vars.toList.take k).map Variable.binding).reverse).find? (fun v => v.name == name) =
      (d.findVariable name k).map fun p => p.2.binding := by
  induction k with
  | zero => rfl
  | succ k ih =>
    rw [Draft.findVariable, List.take_add_one]
    cases there : d.vars[k]? with
    | none => simpa [there] using ih
    | some v =>
      have kept : d.vars.toList[k]? = some v := by simpa using there
      rw [kept]
      simp only [Option.toList_some, List.map_append, List.map_cons, List.map_nil,
        List.reverse_append,
        List.reverse_cons, List.reverse_nil, List.nil_append, List.cons_append, List.find?_cons]
      have same : v.binding.name = v.name := rfl
      rw [same]
      cases v.name == name with
      | true => rfl
      | false => exact ih

theorem markScopes_vars (index : Nat) (scopes : List Scope) :
    (markScopes index scopes).map Scope.vars = scopes.map Scope.vars := by
  induction scopes with
  | nil => rfl
  | cons s rest ih =>
    rw [markScopes]
    split
    · rw [List.map_cons, List.map_cons, ih]
    · rfl

/-- A variable of a function itself is found, or one that it has captured before. -/
theorem resolveOwn_some {name : Name} {inside : Bool} {d' : Draft} {r : Resolution}
    (sound : Sound (d :: ds))
    (own : d.resolveOwn name inside = some (d', r)) :
    (d'.shape = d.shape ∧ d'.children = d.children ∧ d'.captures = d.captures) ∧
      (name.bytes ∈ d.shape.visible.map Binding.name ∨ name.bytes ∈ d.captured) ∧
      r.Means ((around (d :: ds)).named name.bytes) := by
  have found := d.findVariable_eq name.bytes d.active
  rw [← Draft.shape_visible] at found
  rw [around, Bindings.named_append]
  unfold Draft.resolveOwn at own
  split at own
  · next i v here =>
    rw [here] at found
    have known : Bindings.named d.shape.visible name.bytes = some v.binding := found
    have mem : name.bytes ∈ d.shape.visible.map Binding.name := by
      refine Decidable.byContradiction fun absent => ?_
      rw [Bindings.named_eq_none.2 absent] at known
      cases known
    rw [known, Option.some_or]
    split at own
    · next c kind =>
      cases own
      exact ⟨⟨rfl, rfl, rfl⟩, .inl mem, by simp [Resolution.Means, Variable.binding, kind]⟩
    · next kind =>
      cases own
      refine ⟨?_, .inl mem, ?_⟩
      · split
        · exact ⟨rfl, rfl, rfl⟩
        · refine ⟨?_, rfl, rfl⟩
          simp only [Draft.shape, Draft.markCaptured, markScopes_vars]
      · have constant : v.binding.constant = none := by
          rw [Variable.binding]
          split
          · next c is => exact absurd is (kind c)
          · rfl
        simp [Resolution.Means, constant]
  · next none_ =>
    rw [none_] at found
    have unknown : Bindings.named d.shape.visible name.bytes = none := found
    rw [unknown, Option.none_or]
    obtain ⟨u, index, same⟩ := Option.map_eq_some_iff.1 own
    cases same
    obtain ⟨inside', called, -⟩ := Array.findIdx?_eq_some_iff_getElem.1 index
    have mem : name.bytes ∈ d.captured := by
      refine List.mem_map.2 ⟨d.captures.list[u], by simp, ?_⟩
      simpa using called
    refine ⟨⟨rfl, rfl, rfl⟩, .inr mem, ?_⟩
    have held := sound.1 _ mem
    rw [Bindings.holds, Option.any_eq_true] at held
    obtain ⟨v, there, none_⟩ := held
    simpa [Resolution.Means, there] using none_

/-- A name that a function or those around it know already changes nothing. -/
theorem refers_own (sound : Sound (d :: ds)) {d' : Draft} (shape : d'.shape = d.shape)
    (children : d'.children = d.children)
    (captures : d'.captures = d.captures)
    (known : n ∈ d.shape.visible.map Binding.name ∨ n ∈ d.captured) :
    Refers [n] (d :: ds) (d' :: ds) ∧ Sound (d' :: ds) := by
  have captured : d'.captured = d.captured := by rw [Draft.captured, Draft.captured, captures]
  have told : d'.told = d.told := by rw [Draft.told, Draft.told, captured]
  refine ⟨?_, ?_⟩
  · cases refers_known (n := n) sound (by rintro p rest ⟨⟩; exact known) with
    | cons _ _ _ told' outer' => exact .cons shape children (fun _ => captured ▸ id) (told.trans told') outer'
  · unfold Sound
    rw [captured]
    exact sound

theorem Resolution.means_holds {r : Resolution} {Γ : Bindings} (means : r.Means (Γ.named n)) :
    Γ.holds n = r.isVariable := by
  rw [Bindings.holds]
  cases found : Γ.named n with
  | none => cases r <;> simp_all [Resolution.Means, Resolution.isVariable]
  | some v => cases r <;> simp_all [Resolution.Means, Resolution.isVariable]

theorem mem_push (d : Draft) (c : Capture) (new) (m : Bytes) :
    m ∈ ({ d with captures := d.captures.push c new } : Draft).captured ↔ m ∈ d.captured ∨ m = c.name.bytes := by
  simp [Draft.captured, Captures.push, Function.comp]

/-- What comes of one more captured variable. -/
theorem refers_push {p p' : Draft} {rest rest' : List Draft} {c : Capture}
    (new : c.name.bytes ∉ d.captures.list.toList.map (Name.bytes ∘ Capture.name))
    (sound : Sound (d :: p :: rest)) (absent : c.name.bytes ∉ d.shape.visible.map Binding.name)
    (outer : Refers [c.name.bytes] (p :: rest) (p' :: rest')) (sound' : Sound (p' :: rest'))
    (holds : (around (p :: rest)).holds c.name.bytes = true)
    (linked : c.name.bytes ∈ p'.shape.visible.map Binding.name ∨ c.name.bytes ∈ p'.captured) :
    Refers [c.name.bytes] (d :: p :: rest) ({ d with captures := d.captures.push c new } :: p' :: rest') ∧
      Sound ({ d with captures := d.captures.push c new } :: p' :: rest') := by
  have past : d.shape.past [c.name.bytes] = [c.name.bytes] :=
    (past_one d.shape c.name.bytes).elim (fun h => absurd h.2 absent) And.left
  have same := outer.around_eq
  constructor
  · refine .cons rfl rfl (fun m mem => (mem_push d c new m).2 (.inl mem)) ?_ (by rw [past]; exact outer)
    have fresh : c.name.bytes ∉ d.captured := new
    rw [past, extended, extended, holds]
    have pushed : ({ d with captures := d.captures.push c new } : Draft).captured = d.captured ++ [c.name.bytes] := by
      simp [Draft.captured, Captures.push]
    rw [Draft.told, pushed, List.filter_append]
    by_cases env : c.name.bytes = envName.bytes
    · simp [env, Draft.told]
    · simp [env, fresh, Draft.told]
  · refine ⟨fun m mem => ?_, fun m mem => ?_, sound'⟩
    · rw [same]
      rcases (mem_push d c new m).1 mem with old | rfl
      · exact sound.1 m old
      · exact holds
    · rcases (mem_push d c new m).1 mem with old | rfl
      · cases outer with
        | cons shape _ kept _ _ =>
          rw [shape]
          exact (sound.2.1 m old).imp_right (kept m)
      · exact linked

theorem resolveOwn_none {name : Name} {inside : Bool} (own : d.resolveOwn name inside = none) :
    name.bytes ∉ d.shape.visible.map Binding.name ∧ name.bytes ∉ d.captured := by
  refine ⟨?_, Draft.notMem_of_resolveOwn own⟩
  rw [← Bindings.named_eq_none, Bindings.named, Draft.shape_visible, Draft.findVariable_eq]
  unfold Draft.resolveOwn at own
  split at own
  · split at own <;> cases own
  · next none_ => rw [none_]; rfl

/-- Nothing comes of a name that stands for no variable. -/
theorem refers_other {p p' : Draft} {rest rest' : List Draft} (sound : Sound (d :: p :: rest))
    (absent : n ∉ d.shape.visible.map Binding.name) (outer : Refers [n] (p :: rest) (p' :: rest'))
    (sound' : Sound (p' :: rest')) (none_ : (around (p :: rest)).holds n = false) :
    Refers [n] (d :: p :: rest) (d :: p' :: rest') ∧ Sound (d :: p' :: rest') := by
  have past : d.shape.past [n] = [n] := (past_one d.shape n).elim (fun h =>
    absurd h.2 absent) And.left
  refine ⟨.cons rfl rfl (fun _ mem => mem) ?_ (by rw [past]; exact outer), ?_, ?_, sound'⟩
  · rw [past, extended_one]
    rw [none_]
    rfl
  · rw [outer.around_eq]
    exact sound.1
  · intro m mem
    cases outer with
    | cons shape _ kept _ _ =>
      rw [shape]
      exact (sound.2.1 m mem).imp_right (kept m)

theorem holds_outermost : Bindings.outermost.holds n = (n == envName.bytes) := by
  simp only [Bindings.holds, Bindings.outermost, Bindings.named, Binding.variable, List.find?_cons,
    List.find?_nil]
  rw [Bool.beq_comm]
  cases n == envName.bytes <;> rfl

/-- What a name is resolved to, and what comes of it. -/
theorem resolve_refers {name : Name} {ds' : List Draft} {d d' : Draft} {inside : Bool}
    {r : Resolution}
    (sound : Sound (d :: ds)) (run : d.resolve name inside ds = .ok (d', ds', r)) :
    (Refers [name.bytes] (d :: ds) (d' :: ds') ∧ Sound (d' :: ds')) ∧
      r.Means ((around (d :: ds)).named name.bytes) ∧
      (r.isVariable = true → name.bytes ∈ d'.shape.visible.map Binding.name ∨ name.bytes ∈ d'.captured) := by
  induction ds generalizing d d' inside ds' r with
  | nil =>
    unfold Draft.resolve at run
    split at run
    · next own =>
      cases run
      obtain ⟨⟨shape, children, captures⟩, known, means⟩ := resolveOwn_some sound own
      refine ⟨refers_own sound shape children captures known, means, fun _ => ?_⟩
      rw [shape, Draft.captured, captures]
      exact known
    · next own =>
      cases run
      obtain ⟨absent, new⟩ := resolveOwn_none own
      have other : (name.bytes == envName.bytes) = false := by
        rw [beq_eq_false_iff_ne]
        intro env
        exact new (env ▸ sound.2.1)
      have past : d.shape.past [name.bytes] = [name.bytes] :=
        (past_one d.shape name.bytes).elim (fun h => absurd h.2 absent) And.left
      refine ⟨⟨.cons rfl rfl (fun _ mem => mem) ?_ .nil, sound⟩, ?_, nofun⟩
      · rw [past, extended_one]
        rw [around, holds_outermost, other]
        rfl
      · rw [around, around, Bindings.named_append, Bindings.named_eq_none.2 absent]
        have unknown := holds_outermost (n := name.bytes)
        rw [other] at unknown
        simpa [Resolution.Means, Bindings.outermost, Bindings.named, Binding.variable,
          BEq.comm] using other
  | cons p rest ih =>
    unfold Draft.resolve at run
    split at run
    · next own =>
      cases run
      obtain ⟨⟨shape, children, captures⟩, known, means⟩ := resolveOwn_some sound own
      refine ⟨refers_own sound shape children captures known, means, fun _ => ?_⟩
      rw [shape, Draft.captured, captures]
      exact known
    · next own =>
      obtain ⟨absent, new⟩ := resolveOwn_none own
      dsimp only at run
      cases resolved : p.resolve name false rest with
      | error line => rw [resolved] at run; cases run
      | ok found =>
        obtain ⟨p', rest', r'⟩ := found
        obtain ⟨⟨outer, sound'⟩, means, linked⟩ := ih sound.2.2 resolved
        have holds := Resolution.means_holds means
        have same : (around (d :: p :: rest)).named name.bytes = (around (p :: rest)).named name.bytes := by
          rw [around, Bindings.named_append, Bindings.named_eq_none.2 absent, Option.none_or]
        rw [same]
        have captures : ∀ {c : Capture} {newer} {d' : Draft} {r : Resolution}, c.name = name →
            d.addCapture c newer = .ok (d', r) → r'.isVariable = true →
            (Refers [name.bytes] (d :: p :: rest) (d' :: p' :: rest') ∧ Sound (d' :: p' :: rest')) ∧
              r.Means ((around (p :: rest)).named name.bytes) ∧
              (r.isVariable = true → name.bytes ∈ d'.shape.visible.map Binding.name ∨ name.bytes ∈ d'.captured) := by
          rintro c newer d' r rfl added variable_
          unfold Draft.addCapture at added
          split at added
          · cases added
          · cases added
            refine ⟨refers_push newer sound absent outer sound' (holds.trans variable_) (linked variable_), ?_,
              fun _ => .inr ((mem_push d c newer _).2 (.inr rfl))⟩
            cases r' <;> first | exact means | cases variable_
        rw [resolved] at run
        cases r' with
        | «variable» reg i =>
          cases added : d.addCapture ⟨name, ⟨true, reg⟩, (p'.vars[i]?).any fun v =>
            v.kind.isConst⟩ new with
          | error line => simp only [bind, Except.bind, added] at run; cases run
          | ok pair =>
            simp only [bind, Except.bind, added] at run
            cases run
            exact captures rfl added rfl
        | captured u =>
          cases added : d.addCapture ⟨name, ⟨false, u⟩,
            (p'.captures.list[u]?).any Capture.isConst⟩ new with
          | error line => simp only [bind, Except.bind, added] at run; cases run
          | ok pair =>
            simp only [bind, Except.bind, added] at run
            cases run
            exact captures rfl added rfl
        | global =>
          cases run
          exact ⟨refers_other sound absent outer sound' holds, means, nofun⟩
        | compileTime c =>
          cases run
          exact ⟨refers_other sound absent outer sound' holds, means, nofun⟩

end NpcDialog.Lua
