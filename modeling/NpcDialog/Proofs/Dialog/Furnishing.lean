import NpcDialog.Proofs.Dialog.Contexts
import NpcDialog.Proofs.Dialog.Equipment
import NpcDialog.Proofs.Machine.Suspender

/-!
# The code of the host's own texts

The texts of a context's loaders and of the function around a suspending callback are the
same for every context, so what they are compiled to can be written down once.  A new
context is then made without compiling them again, which makes what is said of all new
contexts a matter of a short evaluation.

* `Preparation.textLoadersCode`, `Preparation.suspenderChunk` — the code of the two.
* `Preparation.compile_textLoaders`, `Preparation.compile_suspender` — the texts are
  compiled to it.
* `Machine.furnished`, `Context.furnish` — a machine and a context that are made with it.
* `Machine.equipped_eq_furnished`, `Context.create_eq_furnish` — they are those that a
  conversation begins with.
-/

namespace NpcDialog

open Lua
open Bytes (ofText)

/-! ## Code compared with code -/

namespace Lua

mutual

/-- Are two functions the same? -/
def FunctionCode.same : FunctionCode → FunctionCode → Bool
  | ⟨params, isVararg, registers, code, consts, captures, notes, children⟩,
    ⟨params', isVararg', registers', code', consts', captures', notes', children'⟩ =>
    (params, isVararg, registers, code) = (params', isVararg', registers', code') &&
      (consts, captures, notes) = (consts', captures', notes') &&
      FunctionCode.sameAll children children'

/-- Are functions the same, one by one? -/
def FunctionCode.sameAll : List FunctionCode → List FunctionCode → Bool
  | [], [] => true
  | f :: rest, g :: rest' => f.same g && FunctionCode.sameAll rest rest'
  | _, _ => false

end

theorem FunctionCode.eq_of_same (f : FunctionCode) : ∀ g, f.same g = true → f = g := by
  refine FunctionCode.rec (motive_1 := fun f => ∀ g, f.same g = true → f = g)
    (motive_2 := fun fs => ∀ gs, sameAll fs gs = true → fs = gs) ?mk ?nil ?cons f
  case nil =>
    intro gs h
    cases gs with
    | nil => rfl
    | cons g gs => cases h
  case cons =>
    intro f rest ihf ihrest gs h
    cases gs with
    | nil => cases h
    | cons g gs =>
      obtain ⟨first, others⟩ := Bool.and_eq_true_iff.1 h
      rw [ihf g first, ihrest gs others]
  case mk =>
    intro params isVararg registers code consts captures notes children ih g h
    obtain ⟨params', isVararg', registers', code', consts', captures', notes', children'⟩ := g
    simp only [same, Bool.and_eq_true, decide_eq_true_eq, Prod.mk.injEq] at h
    obtain ⟨⟨⟨rfl, rfl, rfl, rfl⟩, rfl, rfl, rfl⟩, children⟩ := h
    rw [ih _ children]

/-- So a text is compiled to code that is the same as what it is compiled to. -/
theorem Chunk.compile_of_same {name text : Bytes} {room : Nat} {c : Chunk}
    (same : (Chunk.compile name text room).toOption.any (FunctionCode.same c) = true) :
    Chunk.compile name text room = .ok c := by
  cases compiled : Chunk.compile name text room with
  | error e =>
    rw [compiled] at same
    cases same
  | ok c' =>
    rw [compiled] at same
    rw [FunctionCode.eq_of_same _ _ same]

end Lua

/-! ## The loaders -/

namespace Preparation

/-- The name of the loaders' text. -/
def loadersLabel : Bytes := ofText "=loaders"

/-- The function that hands a chunk on. -/
def textLoadCode : FunctionCode where
  params := 3
  isVararg := true
  registers := 8
  code := #[.varargPrep 3, .getCaptured 3 0, .move 4 0, .move 5 1, .loadConst 6 0, .vararg 7 none,
    .tailCall 3 none false, .return 3 none false, .return 3 (some 0) false]
  consts := #[.str (ofText "t")]
  captures := #[⟨true, 0⟩]
  notes :=
    { source := some loadersLabel
      lineDefined := 4
      lines := #[4, 5, 5, 5, 5, 5, 5, 5, 6]
      locals := #[⟨ofText "chunk", 0, 9⟩, ⟨ofText "chunkname", 0, 9⟩, ⟨ofText "_", 0, 9⟩]
      captureNames := #[ofText "load"] }
  children := []

/-- The function that hands the name of a file on. -/
def textLoadFileCode : FunctionCode where
  params := 2
  isVararg := true
  registers := 6
  code := #[.varargPrep 2, .getCaptured 2 0, .move 3 0, .loadConst 4 0, .vararg 5 none,
    .tailCall 2 none false, .return 2 none false, .return 2 (some 0) false]
  consts := #[.str (ofText "t")]
  captures := #[⟨true, 1⟩]
  notes :=
    { source := some loadersLabel
      lineDefined := 8
      lines := #[8, 9, 9, 9, 9, 9, 9, 10]
      locals := #[⟨ofText "filename", 0, 8⟩, ⟨ofText "_", 0, 8⟩]
      captureNames := #[ofText "loadfile"] }
  children := []

/-- The function that runs a file. -/
def textRunFileCode : FunctionCode where
  params := 1
  isVararg := false
  registers := 4
  code := #[.getCapturedField 1 0 0, .getCaptured 2 1, .move 3 0, .call 2 (some 1) none,
    .call 1 none (some 1), .move 2 1, .tailCall 2 (some 0) false, .return 2 none false,
    .return 2 (some 0) false]
  consts := #[.str (ofText "assert")]
  captures := #[⟨false, 0⟩, ⟨true, 3⟩]
  notes :=
    { source := some loadersLabel
      lineDefined := 12
      lines := #[13, 13, 13, 13, 13, 14, 14, 14, 15]
      locals := #[⟨ofText "filename", 0, 9⟩, ⟨ofText "f", 5, 9⟩]
      captureNames := #[ofText "_ENV", ofText "text_loadfile"] }
  children := []

/-- What makes the three. -/
def textLoadersCode : Chunk where
  params := 0
  isVararg := true
  registers := 8
  code := #[.varargPrep 0, .getCapturedField 0 0 0, .getCapturedField 1 0 1, .closure 2 0,
    .closure 3 1, .closure 4 2, .move 5 2, .move 6 3, .move 7 4, .return 5 (some 3) true,
    .return 5 (some 0) true]
  consts := #[.str (ofText "load"), .str (ofText "loadfile")]
  captures := #[⟨true, 0⟩]
  notes :=
    { source := some loadersLabel
      lineDefined := 0
      lines := #[1, 2, 2, 6, 10, 15, 17, 17, 17, 17, 17]
      locals := #[⟨ofText "load", 3, 11⟩, ⟨ofText "loadfile", 3, 11⟩, ⟨ofText "text_load", 4, 11⟩,
        ⟨ofText "text_loadfile", 5, 11⟩, ⟨ofText "text_dofile", 6, 11⟩]
      captureNames := #[ofText "_ENV"] }
  children := [textLoadCode, textLoadFileCode, textRunFileCode]

/-- The text is compiled to this code. -/
theorem compile_textLoaders :
    Chunk.compile (ofText "=loaders") (ofText textLoaders) Machine.compileRoom = .ok textLoadersCode :=
  Chunk.compile_of_same (by decide +kernel)

/-! ## The function around a suspending callback -/

/-- The name of its text. -/
def suspenderLabel : Bytes := ofText "=next"

/-- The function itself. -/
def suspendingCode : FunctionCode where
  params := 0
  isVararg := true
  registers := 2
  code := suspenderCode
  consts := #[]
  captures := #[⟨true, 0⟩, ⟨true, 1⟩]
  notes :=
    { source := some suspenderLabel
      lineDefined := 4
      lines := #[4, 5, 5, 5, 5, 5, 6, 6, 6, 8]
      locals := #[]
      captureNames := #[ofText "notify", ofText "yield"] }
  children := []

/-- What makes it. -/
def suspenderChunk : Chunk where
  params := 0
  isVararg := true
  registers := 3
  code := #[.varargPrep 0, .vararg 0 (some 1), .getCapturedField 1 0 0, .getField 1 1 1, .closure 2 0,
    .return 2 (some 1) true, .return 2 (some 0) true]
  consts := #[.str (ofText "coroutine"), .str (ofText "yield")]
  captures := #[⟨true, 0⟩]
  notes :=
    { source := some suspenderLabel
      lineDefined := 0
      lines := #[1, 2, 3, 3, 8, 8, 8]
      locals := #[⟨ofText "notify", 2, 7⟩, ⟨ofText "yield", 4, 7⟩]
      captureNames := #[ofText "_ENV"] }
  children := [suspendingCode]

/-- The text is compiled to this code. -/
theorem compile_suspender : Chunk.compile (ofText ("=" ++ Callback.advance.name)) (ofText suspender)
    Machine.compileRoom = .ok suspenderChunk :=
  Chunk.compile_of_same (by decide +kernel)

end Preparation

/-! ## New machines and contexts -/

open Preparation

namespace Lua.Machine

/-- The results of code that is loaded and run by itself. -/
def returned (m : Machine) (c : Chunk) (args : Array Value) : Array Value × Machine :=
  let made := m.loadChunk c
  match (made.2.callMain made.1 args).alone with
  | (.ok vs, m) => (vs, m)
  | (.error _, m) => (#[], m)

/-- They are those of the text that the code was compiled from. -/
theorem resultsOf_eq_returned {name text : String} {c : Chunk}
    (compiled : Chunk.compile (ofText name) (ofText text) compileRoom = .ok c) (m : Machine)
    (args : Array Value) : m.resultsOf name text args = m.returned c args := by
  rw [resultsOf, compiled]
  rfl

theorem withTextLoaders_eq_returned (m : Machine) :
    m.withTextLoaders = withLoaders (m.returned textLoadersCode #[]) := by
  rw [withTextLoaders_eq, resultsOf_eq_returned compile_textLoaders]

/-- The machine with the suspending callback made of its code. -/
def withAdvance (m : Machine) : Machine :=
  let made := m.returned suspenderChunk #[.builtin (.host .advance)]
  made.2.setGlobal Callback.advance.name (made.1.getD 0 .nil)

theorem withCallback_advance (m : Machine) : m.withCallback .advance = m.withAdvance := by
  unfold withCallback withAdvance
  rw [resultsOf_eq_returned compile_suspender]
  rfl

/-- The machine of a new context, with the host's own texts compiled. -/
def furnished (files : FileTree) : Machine :=
  ((withLoaders ((fresh files).returned textLoadersCode #[])).withCallback .message).withAdvance
    |>.withCallback .close

/-- It is the same. -/
theorem equipped_eq_furnished (files : FileTree) : equipped files = furnished files := by
  rw [equipped, withTextLoaders_eq_returned, furnished, ← withCallback_advance]
  rfl

end Lua.Machine

/-- The code of a text that is no file's. -/
def Bytecode.ofSource? (text : String) : Option Bytecode :=
  (Chunk.compile (ofText "=text") (ofText text) Machine.compileRoom).toOption.map fun c => ⟨c.archive⟩

namespace Context

open Lua.Machine

/-- A new context whose machine has the loaders made of their code. -/
def furnish (config : Config) (session : SessionId) (entity : EntityId) (h : Host) : Option Context :=
  let m := (furnished h.files).limited config.memoryLimit
  if m.isOverfull || m.bindHandles.isOverfull then none
  else some ⟨h.next, session, entity, none, m.bindHandles, .between h.next session entity⟩

/-- It is the same. -/
theorem create_eq_furnish (config : Config) (s : SessionId) (e : EntityId) (h : Host) :
    (create config s e h).value.toOption = furnish config s e h := by
  have prepares : prepare config h.files =
      if ((furnished h.files).limited config.memoryLimit).isOverfull then .error .memory
      else .ok ((furnished h.files).limited config.memoryLimit) := by
    rw [← equipped_eq_furnished]
    rfl
  simp only [create, Action.bind_apply, Action.files_apply, prepares]
  unfold furnish
  dsimp only
  cases full : ((furnished h.files).limited config.memoryLimit).isOverfull with
  | true => simp [Except.toOption]
  | false =>
    cases full' : ((furnished h.files).limited config.memoryLimit).bindHandles.isOverfull <;>
      simp [full', Except.toOption]

/-- So what is made of a context is known as well, besides the context. -/
theorem create_of_furnish {config : Config} {s : SessionId} {e : EntityId} {h : Host} {c : Context}
    (furnished : furnish config s e h = some c) : create config s e h =
      ⟨.ok c, ⟨⟨h.next.val + 1⟩, h.files⟩, [.line (.created h.next s e)]⟩ := by
  have made := create_eq_furnish config s e h
  have exits := created config s e h
  rw [furnished] at made
  generalize create config s e h = told at made exits ⊢
  cases exits with
  | failed f n later => cases made
  | made m m₀ prepared bound =>
    cases made
    rfl

end Context

end NpcDialog
