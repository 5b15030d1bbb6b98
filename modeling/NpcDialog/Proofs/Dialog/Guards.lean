import NpcDialog.Proofs.Dialog.Contexts
import NpcDialog.Proofs.Dialog.Equipment
import NpcDialog.Proofs.Dialog.Furnishing
import NpcDialog.Proofs.Dialog.FileRuns
import NpcDialog.Proofs.Machine.Sealed

/-!
# The loaders of a context are in place

The functions that a context has for loading code stand before the library's own ones,
which they have captured.  Nothing else has captured these variables, and the loaders
only read them and make no functions, so no program can change them.  That a new
context has its loaders in place and under their names is computed, once for all
contexts: the machine of a new context is always the same but for the files that there
are and the bound for the memory.

* `Machine.Guarded` — the loaders are in place.
* `Machine.Guarded.inherit` — they remain so.
* `Context.machine_create` — the machine of a new context.
* `Context.guarded_create` — it has its loaders in place.
* `Context.unmarked_create` — nothing of it is to be finalized.
-/

namespace NpcDialog

open Lua Lua.Machine
open Bytes (ofText)
open Preparation

namespace Lua

/-! ## Loaders in place -/

namespace Machine

/-- A function of the program with some kind of code, and with a sealed variable that it
has captured under an index. -/
def HasGuard (m : Machine) (id : Nat) (kind : FunctionCode → Prop) (u : Nat) (v : Value) : Prop :=
  ∃ c, m.heap.closures[id]? = some c ∧ kind c.code ∧ m.Sealed (c.cells.getD u 0) v

/-- The loaders are in place: their code is as it was made, and what they have captured
is sealed. -/
structure Guarded (m : Machine) : Prop where
  load : m.HasGuard 1 (·.HandsOn 2) 0 (.builtin .load)
  loadFile : m.HasGuard 2 (·.HandsOn 1) 0 (.builtin .loadfile)
  runFile : m.HasGuard 3 FunctionCode.RunsFile 1 (.closure 2)

variable {m m' : Machine}

theorem HasGuard.inherit {id : Nat} {kind : FunctionCode → Prop} {u : Nat} {v : Value}
    (h : m.HasGuard id kind u v) (later : m.Inherits m') : m'.HasGuard id kind u v := by
  obtain ⟨c, found, code, sealed⟩ := h
  exact ⟨c, later.functions id c found, code, later.sealed _ _ sealed⟩

theorem Guarded.inherit (h : m.Guarded) (later : m.Inherits m') : m'.Guarded :=
  ⟨h.load.inherit later, h.loadFile.inherit later, h.runFile.inherit later⟩

/-- The main thread's calls may be over. -/
theorem Inherits.rested (m : Machine) : m.Inherits m.rested :=
  ⟨fun _ _ found => found, fun _ _ sealed => { sealed with running := ⟨sealed.running.1, nofun⟩ }⟩

/-! ## Loaders that are found in place -/

end Machine

/-- The function that a value is. -/
def Value.callee? : Value → Option (Builtin ⊕ Nat)
  | .builtin b => some (.inl b)
  | .closure id => some (.inr id)
  | _ => none

/-- A function as a value. -/
def Value.ofCallee : Builtin ⊕ Nat → Value
  | .inl b => .builtin b
  | .inr id => .closure id

theorem Value.eq_ofCallee {v : Value} {f : Builtin ⊕ Nat} (h : v.callee? = some f) :
    v = ofCallee f := by
  cases v <;> cases h <;> rfl

namespace Machine

variable (m : Machine)

/-- Is a captured variable sealed, with a function as its value, in a machine without
calls? -/
def isSealed (id : Nat) (f : Builtin ⊕ Nat) : Bool :=
  id != 0 &&
    (match m.heap.cells[id]? with
      | some (.closed v) => v.callee? = some f
      | _ => false) &&
    m.heap.closures.all (fun c => !c.cells.contains id || c.code.onlyReads) &&
    m.cells.isEmpty && m.frames.isEmpty && m.threads.all fun t => t.cells.isEmpty && t.frames.isEmpty

/-- Is a function with some kind of code in place? -/
def hasGuard (id : Nat) (kind : FunctionCode → Prop) [DecidablePred kind] (u : Nat)
    (f : Builtin ⊕ Nat) : Bool :=
  match m.heap.closures[id]? with
  | some c => decide (kind c.code) && m.isSealed (c.cells.getD u 0) f
  | none => false

/-- Does a global variable have a function of the program as its value? -/
def hasGlobal (name : String) (id : Nat) : Bool :=
  (m.heap.rawGetStr m.heap.globals (ofText name)).callee? = some (.inr id)

variable {m}

theorem sealed_of_isSealed {id : Nat} {f : Builtin ⊕ Nat} (h : m.isSealed id f = true) :
    m.Sealed id (.ofCallee f) := by
  simp only [isSealed, Bool.and_eq_true, bne_iff_ne, List.isEmpty_iff, Array.all_eq_true_iff_forall_mem,
    Bool.or_eq_true, Bool.not_eq_true'] at h
  obtain ⟨⟨⟨⟨⟨apart, value⟩, functions⟩, cells⟩, frames⟩, threads⟩ := h
  refine ⟨apart, ?_, fun c mem captured => ?_, ?_, fun t mem => ?_⟩
  · split at value
    · next v there => rw [there, Value.eq_ofCallee (of_decide_eq_true value)]
    · cases value
  · refine (functions c mem).resolve_left fun out => ?_
    simp [captured] at out
  · rw [cells, frames]
    exact uncaptured_nil id
  · obtain ⟨cells, frames⟩ := threads t mem
    rw [cells, frames]
    exact uncaptured_nil id

theorem hasGuard_of_eq_true {id u : Nat} {kind : FunctionCode → Prop} [DecidablePred kind]
    {f : Builtin ⊕ Nat} (h : m.hasGuard id kind u f = true) : m.HasGuard id kind u (.ofCallee f) := by
  unfold hasGuard at h
  split at h
  · next c found =>
    simp only [Bool.and_eq_true, decide_eq_true_eq] at h
    exact ⟨c, found, h.1, sealed_of_isSealed h.2⟩
  · cases h

/-- Are the loaders in place? -/
def isGuarded (m : Machine) : Bool :=
  m.hasGuard 1 (·.HandsOn 2) 0 (.inl .load) && m.hasGuard 2 (·.HandsOn 1) 0 (.inl .loadfile) &&
    m.hasGuard 3 FunctionCode.RunsFile 1 (.inr 2)

theorem guarded_of_isGuarded (h : m.isGuarded = true) : m.Guarded := by
  simp only [isGuarded, Bool.and_eq_true] at h
  exact ⟨hasGuard_of_eq_true h.1.1, hasGuard_of_eq_true h.1.2, hasGuard_of_eq_true h.2⟩

/-- The loaders are the globals with their names. -/
structure NamesLoaders (m : Machine) : Prop where
  load : m.heap.rawGetStr m.heap.globals (ofText "load") = .closure 1
  loadFile : m.heap.rawGetStr m.heap.globals (ofText "loadfile") = .closure 2
  runFile : m.heap.rawGetStr m.heap.globals (ofText "dofile") = .closure 3

/-- Are they? -/
def namesLoaders (m : Machine) : Bool :=
  m.hasGlobal "load" 1 && m.hasGlobal "loadfile" 2 && m.hasGlobal "dofile" 3

theorem namesLoaders_of_eq_true (h : m.namesLoaders = true) : m.NamesLoaders := by
  simp only [namesLoaders, hasGlobal, Bool.and_eq_true, decide_eq_true_eq] at h
  exact ⟨Value.eq_ofCallee h.1.1, Value.eq_ofCallee h.1.2, Value.eq_ofCallee h.2⟩

/-! ## The machine of a new context -/

open Context (withFiles)

/-- The host's own texts run to their ends in plain steps, and they leave the loaders in
place and under their names, and nothing to be finalized. -/
theorem equipped_empty :
    (fresh .empty).runsPlainly "=loaders" textLoaders #[] = true ∧
      ((fresh .empty).withTextLoaders.withCallback .message).runsPlainly
        ("=" ++ Callback.advance.name) suspender #[.builtin (.host .advance)] = true ∧
      (equipped .empty).isGuarded = true ∧ (equipped .empty).bindHandles.namesLoaders = true ∧
      (equipped .empty).bindHandles.heap.marked = [] := by
  rw [equipped_eq_furnished, withTextLoaders_eq_returned, runsPlainly, compile_textLoaders, runsPlainly,
    compile_suspender]
  decide +kernel

theorem equipped_eq (files : FileTree) : equipped files = withFiles (equipped .empty) files :=
  equipped_withFiles files equipped_empty.1 equipped_empty.2.1

/-- The machine with other files and another bound for the memory. -/
def within (m : Machine) (files : FileTree) (limit : Option Nat) : Machine :=
  (withFiles m files).limited limit

theorem setGlobal_within (files : FileTree) (limit : Option Nat) (name : String) (v : Value) :
    (m.within files limit).setGlobal name v = (m.setGlobal name v).within files limit := by
  unfold setGlobal Heap.rawSetStr Heap.rawSetNormal
  dsimp only
  split <;> split <;> first | rfl | contradiction

/-- The induction is on the handles. -/
theorem bindHandles_within (files : FileTree) (limit : Option Nat) :
    (m.within files limit).bindHandles = m.bindHandles.within files limit := by
  unfold bindHandles
  induction Handle.all generalizing m with
  | nil => rfl
  | cons x rest ih =>
    rw [List.foldl_cons, List.foldl_cons, ← ih]
    exact congrArg (rest.foldl _) (setGlobal_within files limit x.globalName (.handle x))

theorem marked_within (files : FileTree) (limit : Option Nat) :
    (m.within files limit).heap.marked = m.heap.marked := rfl

theorem NamesLoaders.within (h : m.NamesLoaders) (files : FileTree) (limit : Option Nat) :
    (m.within files limit).NamesLoaders := ⟨h.load, h.loadFile, h.runFile⟩

namespace Inherits

theorem within (m : Machine) (files : FileTree) (limit : Option Nat) :
    m.Inherits (m.within files limit) :=
  ⟨fun _ _ found => found, fun _ _ sealed => { sealed with }⟩

theorem withFiles (m : Machine) (files : FileTree) : m.Inherits (Context.withFiles m files) :=
  ⟨fun _ _ found => found, fun _ _ sealed => { sealed with }⟩

/-- The induction is on the handles. -/
theorem bindHandles (m : Machine) : m.Inherits m.bindHandles := by
  unfold Machine.bindHandles
  induction Handle.all generalizing m with
  | nil => exact .refl m
  | cons x rest ih =>
    have set : m.Inherits (m.setGlobal x.globalName (.handle x)) := of_core rfl
    exact set.trans (ih _)

end Inherits

end Machine

end Lua

namespace Context

variable {c : Context}

/-- The machine of a new context is the same for all, but for the files and the bound
for the memory. -/
theorem machine_create {config : Config} {s : SessionId} {e : EntityId} {h : Host}
    (made : (create config s e h).value = .ok c) :
    c.machine = (equipped .empty).bindHandles.within h.files config.memoryLimit := by
  have exit := created config s e h
  generalize create config s e h = told at exit made
  cases exit with
  | failed f n hn => cases made
  | made m m₀ prepared bound =>
    cases made
    have limited : m₀ = (equipped .empty).within h.files config.memoryLimit := by
      unfold Machine.prepare at prepared
      dsimp only at prepared
      rw [equipped_eq] at prepared
      show m₀ = (withFiles (equipped .empty) h.files).limited config.memoryLimit
      generalize (withFiles (equipped .empty) h.files).limited config.memoryLimit = m₁ at prepared ⊢
      split at prepared
      · cases prepared
      · exact (Except.ok.inj prepared).symm
    show m = _
    rw [bound, limited, bindHandles_within]

theorem guarded_create {config : Config} {s : SessionId} {e : EntityId} {h : Host}
    (made : (create config s e h).value = .ok c) : c.machine.Guarded ∧ c.machine.NamesLoaders := by
  obtain ⟨-, -, guarded, names, -⟩ := equipped_empty
  rw [machine_create made]
  have before := guarded_of_isGuarded guarded
  exact ⟨before.inherit ((Inherits.bindHandles _).trans (.within _ _ _)),
    (namesLoaders_of_eq_true names).within _ _⟩

/-- Nothing of a new context is to be finalized. -/
theorem unmarked_create {config : Config} {s : SessionId} {e : EntityId} {h : Host}
    (made : (create config s e h).value = .ok c) : c.machine.heap.marked = [] := by
  obtain ⟨-, -, -, -, unmarked⟩ := equipped_empty
  rw [machine_create made, marked_within, unmarked]

end Context

end NpcDialog
