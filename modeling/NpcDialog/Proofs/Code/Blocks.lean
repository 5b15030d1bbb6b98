import NpcDialog.Proofs.Code.Walks

/-!
# Blocks and declarations

How the shape of a function changes where a block begins and ends, and where variables
are declared and come into scope.

* `Shape.Full` — all variables are in scope.
* `Shape.extend`, `Shape.pend`, `Shape.opened` — more variables in scope, more that are
  not in scope yet, and a new block.
* `Gen.shapes_open`, `Gen.shapes_close` — the beginning and the end of a block.
* `Gen.shapes_declareLocals` and others — declarations.
-/

namespace NpcDialog.Lua

open Bytes (ofText)

/-! ## Blocks -/

namespace Shape

variable {p : Shape} {B C : Bindings} {L K : List Binding}

/-- Are all declared variables in scope? -/
def Full (p : Shape) : Prop := p.active = p.declared.length

/-- The shape with more variables in scope, the innermost first. -/
def extend (p : Shape) (B : Bindings) :
    Shape := ⟨p.declared ++ B.reverse, p.active + B.length, p.scopes⟩

/-- The shape with more variables that are not in scope yet, the first one first. -/
def pend (p : Shape) (L : List Binding) : Shape := { p with declared := p.declared ++ L }

/-- The shape in a block. -/
def opened (p : Shape) : Shape := { p with scopes := p.active :: p.scopes }

/-- A new block alone brings nothing into scope. -/
theorem visible_opened : p.opened.visible = p.visible := rfl

/-- In a new block still all variables are in scope. -/
theorem Full.opened (full : p.Full) : p.opened.Full := full

/-- And so they are with more of them in scope. -/
theorem Full.extend (full : p.Full) : (p.extend B).Full := by
  simp only [Full, Shape.extend] at full ⊢
  simp [full]

/-- The new ones are visible in front of all others. -/
theorem Full.visible_extend (full : p.Full) : (p.extend B).visible = B ++ p.visible := by
  have whole : p.declared.take p.active = p.declared :=
    List.take_of_length_le (Nat.le_of_eq full.symm)
  have whole' : (p.declared ++ B.reverse).take (p.active + B.length) = p.declared ++ B.reverse :=
    List.take_of_length_le (by simp [show p.active = _ from full])
  rw [visible, visible, whole]
  simp only [Shape.extend, whole', List.reverse_append, List.reverse_reverse]

/-- Variables that are declared but not in scope yet are not visible. -/
theorem Full.visible_pend (full : p.Full) : (p.pend L).visible = p.visible := by
  have same : (p.declared ++ L).take p.active = p.declared.take p.active := by
    rw [show p.active = p.declared.length from full, List.take_left, List.take_length]
  rw [visible, visible]
  simp only [pend, same]

theorem extend_nil : p.extend [] = p := by
  cases p
  simp [extend]

/-- To extend a shape twice is to extend it once by both, the later ones in front. -/
theorem extend_extend : (p.extend B).extend C = p.extend (C ++ B) := by
  simp [extend, Nat.add_assoc, Nat.add_comm]

/-- The first of several declared variables come into scope. -/
theorem activate_pend : (p.pend (L ++ K)).activate L.length = (p.extend L.reverse).pend K := by
  simp [extend, pend, activate]

/-- All declared variables come into scope. -/
theorem activate_pend_all : (p.pend L).activate L.length = p.extend L.reverse := by
  simp [extend, pend, activate]

theorem declare_eq (v : Binding) : p.declare v = p.pend [v] := rfl

/-- To declare twice is to declare once. -/
theorem pend_pend : (p.pend L).pend K = p.pend (L ++ K) := by
  simp [pend]

theorem pend_nil : p.pend [] = p := by
  cases p
  simp [pend]

/-- So the same names go past the function. -/
theorem Full.past_pend (full : p.Full) (l : List Bytes) : (p.pend L).past l = p.past l := by
  rw [past, full.visible_pend, past]

/-- The names that go past a function are looked at one by one. -/
theorem past_cons (n : Bytes) (l : List Bytes) :
    p.past (n :: l) = p.past [n] ++ p.past l := past_append p [n] l

/-- Names go past a function with more variables in scope unless one of these binds
them. -/
theorem past_unbound (bound l : List Bytes) (full : p.Full)
    (same : ∀ n, n ∈ B.map Binding.name ↔ n ∈ bound) :
    (p.extend B).past l = p.past (unbound bound l) := by
  rw [past, past, full.visible_extend, unbound, unbound, unbound, List.filter_filter]
  refine List.filter_congr fun n _ => ?_
  have iff := same n
  by_cases mem : n ∈ bound
  · simp [mem, iff.2 mem]
  · have absent := mt iff.1 mem
    simp only [List.map_append, List.contains_eq_mem, List.mem_append, absent, false_or, mem]
    simp

end Shape

namespace Gen

variable {α β : Type} {Δ : Bindings} {p q r : Shape}

/-- At its end a block takes the variables along that it has brought into scope. -/
theorem shapes_close {B : Bindings} (full : p.Full) : Shapes (p.opened.extend B) closeScope p := by
  have closes := shapes_closeScope (show (p.opened.extend B).scopes = p.active :: p.scopes from rfl)
  have back : (p.opened.extend B).declared.take p.active = p.declared := by
    rw [show p.active = p.declared.length from full]
    exact List.take_left
  rw [back] at closes
  exact closes

/-- A block without variables leaves the shape as it found it. -/
theorem shapes_close_empty (full : p.Full) : Shapes p.opened closeScope p := by
  have closes := shapes_close (B := []) full
  rwa [Shape.extend_nil] at closes

/-- A block begins. -/
theorem shapes_open (isLoop : Bool) :
    Shapes p (openScope isLoop) p.opened := shapes_openScope isLoop

/-- A change of what else is known of the innermost block keeps the shape. -/
theorem shapes_changeScope {f : Scope → Scope} (same : ∀ s, (f s).vars = s.vars) :
    Shapes p (changeScope f) p := by
  refine shapes_change fun d shape => ⟨rfl, rfl, ?_⟩
  subst shape
  simp only [Draft.shape]
  cases d.scopes with
  | nil => rfl
  | cons s rest => simp [same]

/-- That a variable of a block is to be closed is none of the shape. -/
theorem shapes_markClosing : Shapes p markClosing p := by
  unfold markClosing
  refine shapes_bind (shapes_changeScope fun s => rfl) fun _ => ?_
  exact shapes_change fun d shape => ⟨rfl, rfl, by subst shape; rfl⟩

/-- The hidden variables of a loop are declared.  What a round keeps is kept by all of
them. -/
theorem shapes_declareHidden (n : Nat) :
    Shapes p (declareHidden n) (p.pend (Bindings.hidden n)) := by
  intro b v b' shape run
  refine natForM_ok (P := fun k c => c.outer = b.outer ∧ c.draft.captures = b.draft.captures ∧
    c.draft.children = b.draft.children ∧ c.draft.shape = p.pend (Bindings.hidden k)) ?_ ⟨rfl, rfl,
      rfl, ?_⟩ run
  · rintro i h k c _ c' ⟨outer, captures, children, shape⟩ ran
    obtain ⟨outer', captures', children', shape'⟩ := shapes_declare loopVariable c _ c' shape ran
    refine ⟨outer'.trans outer, captures'.trans captures, children'.trans children, shape'.trans ?_⟩
    rw [Shape.declare_eq, Shape.pend_pend, Bindings.hidden, Bindings.hidden, List.replicate_succ']
  · rw [shape]
    exact Shape.pend_nil.symm

/-- Further variables of a loop are declared, in their order.  The induction is on the
names. -/
theorem shapes_declareMore (names : List Bytes) :
    Shapes p (declareMore names) (p.pend (names.map .variable)) := by
  induction names generalizing p with
  | nil => rw [List.map_nil, Shape.pend_nil]; exact (calm_pure _).shapes p
  | cons n names ih =>
    unfold declareMore
    refine shapes_next (calm_advanceBy 2) fun _ => shapes_bind (shapes_declare n) fun _ => ?_
    have rest := ih (p := p.declare (.variable n))
    rwa [Shape.declare_eq, Shape.pend_pend] at rest

/-- The parameters of a function are declared, in their order.  The induction is on the
names. -/
theorem shapes_declareParams (isVararg : Bool) (names : List Bytes) :
    Shapes p (declareParams isVararg names) (p.pend (names.map .variable)) := by
  induction names generalizing p with
  | nil =>
    rw [List.map_nil, Shape.pend_nil]
    unfold declareParams
    split
    · exact calm_advance.shapes p
    · exact (calm_pure _).shapes p
  | cons n names ih =>
    have rest := ih (p := p.declare (.variable n))
    rw [Shape.declare_eq, Shape.pend_pend] at rest
    unfold declareParams
    refine shapes_next calm_advance fun _ => shapes_bind (shapes_declare n) fun _ => ?_
    split
    · exact shapes_next calm_advance fun _ => rest
    · exact rest

/-- What kind of variable the last one is does not change what is bound, as long as it
is no name for a constant. -/
theorem shapes_kind (kind : VariableKind) (v : Binding)
    (same : ∀ w : Variable, w.binding.constant = none →
    ({ w with kind } : Variable).binding = w.binding) (variable_ : v.constant = none) :
    Shapes (p.pend [v]) (change fun d =>
      { d with vars := d.vars.modify (d.vars.size - 1) fun v => { v with kind } }) (p.pend [v]) := by
  refine shapes_change fun d shape => ⟨rfl, rfl, ?_⟩
  have vars : d.vars.toList.map Variable.binding = p.declared ++ [v] :=
    congrArg Shape.declared shape
  rw [← shape]
  simp only [Draft.shape, Shape.mk.injEq, and_self, and_true]
  apply List.ext_getElem?
  intro k
  simp only [List.getElem?_map, Array.getElem?_toList, Array.getElem?_modify]
  split
  · next last =>
    subst last
    cases there : d.vars[d.vars.size - 1]? with
    | none => rfl
    | some w =>
      have size : d.vars.size = p.declared.length + 1 := by
        have := congrArg List.length vars
        simpa using this
      have found : (d.vars.toList.map Variable.binding)[d.vars.size - 1]? = some w.binding := by
        simp [there]
      rw [vars, size] at found
      have is : v = w.binding := by simpa using found
      simp [same w (is ▸ variable_)]
  · rfl

/-- The variables of a `local` statement are declared, whatever they are marked with. 
The induction is on the names. -/
theorem shapes_declareLocals (names : List (Bytes × Attribute)) :
    Shapes p (declareLocals names) (p.pend (names.map fun n => .variable n.1)) := by
  induction names generalizing p with
  | nil => rw [List.map_nil, Shape.pend_nil]; exact (calm_pure _).shapes p
  | cons n names ih =>
    obtain ⟨name, a⟩ := n
    have rest := ih (p := p.declare (.variable name))
    rw [Shape.declare_eq, Shape.pend_pend] at rest
    have more : Shapes (p.pend [.variable name]) (do
        if !names.isEmpty then advance
        declareLocals names) (p.pend (((name, a) :: names).map fun n => .variable n.1)) := by
      split
      · exact shapes_next calm_advance fun _ => rest
      · exact rest
    unfold declareLocals
    refine shapes_next calm_advance fun _ => shapes_bind (shapes_declare name) fun _ => ?_
    dsimp only
    by_cases marked : (a != Attribute.regular) = true
    · rw [if_pos marked]
      refine shapes_next (calm_advanceBy 3) fun _ => shapes_bind (shapes_kind _ _ ?_ rfl) fun _ => more
      intro w none_
      cases a with
      | regular => simp [Variable.binding] at none_ ⊢; exact none_.symm
      | const => simp [Variable.binding] at none_ ⊢; exact none_.symm
      | close => simp [Variable.binding] at none_ ⊢; exact none_.symm
    · rw [if_neg marked]
      exact more

end Gen
end NpcDialog.Lua
