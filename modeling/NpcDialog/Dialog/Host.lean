import NpcDialog.Dialog.Log
import NpcDialog.Files

/-!
# The host

What all contexts of one process share: the next number for a context, and the
files.  An action of the host may change these and tells in reports what it
does.

* `Host` — the shared things.
* `Action` — something that is done.
-/

namespace NpcDialog

/-- What all contexts share. -/
structure Host where
  /-- The next number for a context. -/
  next : ContextId
  /-- The files. -/
  files : FileTree

/-- A host that has made no context yet. -/
def Host.start (files : FileTree) : Host := ⟨⟨1⟩, files⟩

/-- What an action comes to. -/
structure Told (α : Type) where
  /-- Its value. -/
  value : α
  /-- The host behind it. -/
  host : Host
  /-- What it told, in order. -/
  reports : List Report

/-- Something that is done in a host. -/
def Action (α : Type) : Type := Host → Told α

namespace Action

instance : Monad Action where
  pure a := fun h => ⟨a, h, []⟩
  bind x f := fun h =>
    let first := x h
    let second := f first.value first.host
    ⟨second.value, second.host, first.reports ++ second.reports⟩

/-- Tells something. -/
def tellAll (rs : List Report) : Action Unit := fun h => ⟨(), h, rs⟩

/-- Writes a line into the log. -/
def log (l : LogLine) : Action Unit := tellAll [.line l]

/-- Takes the next number for a context. -/
def takeId : Action ContextId := fun h => ⟨h.next, { h with next := ⟨h.next.val + 1⟩ }, []⟩

/-- The files. -/
def files : Action FileTree := fun h => ⟨h.files, h, []⟩

/-- Puts other files in place. -/
def setFiles (files : FileTree) : Action Unit := fun h => ⟨(), { h with files }, []⟩

end Action

end NpcDialog
