import NpcDialog.Proofs.Dialog.Managers

/-!
# Histories of a manager

A manager is asked for one thing after the other.  Between two calls anything may
happen outside: other contexts take numbers, and the files change.  A turn is a
call together with what happened before it, and what has become of a call is
recorded.

The calls of the past are listed with the latest first, so that the past of a
call is what lies behind it in the list.

* `Call`, `Reply`, `Record` — what is asked for, and what becomes of it.
* `World` — a manager and its host.
* `World.serve`, `World.after`, `World.records` — one call, and all of them.
-/

namespace NpcDialog

/-- Something that a manager is asked for. -/
inductive Call where
  /-- To begin an interaction. -/
  | start (s : SessionId) (e : EntityId) (script : Metadata)
  /-- To let an interaction go on. -/
  | resume (s : SessionId)
  /-- To end an interaction. -/
  | abandon (s : SessionId)

/-- The answer to a call. -/
inductive Reply where
  /-- To one that begins an interaction. -/
  | started (answer : Except ExecutionFault (Option TaskState))
  /-- To one that lets an interaction go on. -/
  | resumed (answer : Option TaskState)
  /-- To one that ends an interaction. -/
  | abandoned (answer : Bool)

/-- Does what it is asked for. -/
def Manager.answer (m : Manager) : Call → Action (Reply × Manager)
  | .start s e script => do
    let (answer, m) ← m.start s e script
    return (.started answer, m)
  | .resume s => do
    let (answer, m) ← m.resume s
    return (.resumed answer, m)
  | .abandon s => do
    let (answer, m) ← m.abandon s
    return (.abandoned answer, m)

/-- A call, and what happened outside since the one before. -/
structure Turn where
  /-- How many numbers others have taken. -/
  taken : Nat
  /-- The files as they are now. -/
  files : FileTree
  /-- The call. -/
  call : Call

/-- What has become of a call. -/
structure Record where
  /-- The call. -/
  call : Call
  /-- The answer. -/
  reply : Reply
  /-- What was told. -/
  reports : List Report

/-- A manager and its host. -/
structure World where
  /-- The manager. -/
  manager : Manager
  /-- The host. -/
  host : Host

namespace World

/-- A new manager. -/
def new (config : Config) (host : Host) : World := ⟨.ofConfig config, host⟩

/-- The host in which a call is made. -/
def hostAt (w : World) (t : Turn) : Host := ⟨⟨w.host.next.val + t.taken⟩, t.files⟩

/-- One call. -/
def serve (w : World) (t : Turn) : Record × World :=
  let told := w.manager.answer t.call (w.hostAt t)
  (⟨t.call, told.value.1, told.reports⟩, ⟨told.value.2, told.host⟩)

/-- The world behind some calls, the latest first. -/
def after (w : World) : List Turn → World
  | [] => w
  | t :: past => ((w.after past).serve t).2

/-- What has become of some calls, the latest first. -/
def records (w : World) : List Turn → List Record
  | [] => []
  | t :: past => ((w.after past).serve t).1 :: w.records past

/-- What holds at first and is kept by every call holds behind any calls. -/
theorem after_induction {P : World → List Record → Prop} {w : World} (first : P w [])
    (serve : ∀ w' past t, P w' past → P (w'.serve t).2 ((w'.serve t).1 :: past))
    (past : List Turn) :
    P (w.after past) (w.records past) := by
  induction past with
  | nil => exact first
  | cons t past ih => exact serve _ _ t ih

variable (w : World) (n : Nat) (files : FileTree) (s : SessionId)

@[simp] theorem serve_start (e : EntityId) (script : Metadata) :
    w.serve ⟨n, files, .start s e script⟩ =
      let told := w.manager.start s e script ⟨⟨w.host.next.val + n⟩, files⟩
      (⟨.start s e script, .started told.value.1, told.reports⟩, ⟨told.value.2, told.host⟩) := by
  simp [serve, hostAt, Manager.answer]

@[simp] theorem serve_resume :
    w.serve ⟨n, files, .resume s⟩ =
      let told := w.manager.resume s ⟨⟨w.host.next.val + n⟩, files⟩
      (⟨.resume s, .resumed told.value.1, told.reports⟩, ⟨told.value.2, told.host⟩) := by
  simp [serve, hostAt, Manager.answer]

@[simp] theorem serve_abandon :
    w.serve ⟨n, files, .abandon s⟩ =
      let told := w.manager.abandon s ⟨⟨w.host.next.val + n⟩, files⟩
      (⟨.abandon s, .abandoned told.value.1, told.reports⟩, ⟨told.value.2, told.host⟩) := by
  simp [serve, hostAt, Manager.answer]

end World

end NpcDialog
