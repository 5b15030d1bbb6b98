import NpcDialog.Dialog.Callback

/-!
# Events

What a player's side hears of a conversation.

* `SessionId`, `EntityId` — who talks with whom.
* `Event` — something to show.
-/

namespace NpcDialog

/-- The number of a player's session. -/
structure SessionId where
  /-- The number. -/
  val : UInt32
  deriving DecidableEq

/-- The number of an entity that has a script. -/
structure EntityId where
  /-- The number. -/
  val : UInt32
  deriving DecidableEq

/-- The name of a session in messages. -/
def SessionId.text (s : SessionId) : String := s!"session#{s.val.toNat}"

/-- The name of an entity in messages. -/
def EntityId.text (e : EntityId) : String := s!"entity#{e.val.toNat}"

/-- The number of a context. -/
structure ContextId where
  /-- The number. -/
  val : Nat
  deriving DecidableEq

/-- The name of a context in messages. -/
def ContextId.text (c : ContextId) : String := s!"ContextId({c.val})"

/-- What is to be shown to a player. -/
inductive EventKind where
  /-- A message. -/
  | message (text : String)
  /-- The player may advance. -/
  | advance
  /-- The dialog closes. -/
  | close
  deriving DecidableEq

/-- A kind of event between a session and an entity. -/
structure Event where
  /-- The session it is addressed to. -/
  session : SessionId
  /-- The entity it comes from. -/
  entity : EntityId
  /-- What it is. -/
  kind : EventKind
  deriving DecidableEq

end NpcDialog
