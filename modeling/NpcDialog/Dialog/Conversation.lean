import NpcDialog.Dialog.Log

/-!
# Conversations

What a script's machine has of the world outside: what its handles stand for,
and what was told there.  Both are out of a script's reach; only a callback
looks behind a handle, and only a callback tells anything.

* `Identity` — what a handle stands for.
* `InteractionScope` — the conversation a callback is called in.
* `Conversation` — the identities of handles and the reports.
* `Conversing` — something that is done in a conversation.
-/

namespace NpcDialog

/-- What a handle stands for. -/
inductive Identity where
  /-- A context. -/
  | context (c : ContextId)
  /-- A session. -/
  | session (s : SessionId)
  /-- An entity. -/
  | entity (e : EntityId)
  deriving DecidableEq

/-- The context, if it is one. -/
def Identity.context? : Identity → Option ContextId
  | .context c => some c
  | _ => none

/-- The session, if it is one. -/
def Identity.session? : Identity → Option SessionId
  | .session s => some s
  | _ => none

/-- The entity, if it is one. -/
def Identity.entity? : Identity → Option EntityId
  | .entity e => some e
  | _ => none

/-- The conversation a callback is called in. -/
structure InteractionScope where
  /-- The context, as far as its handle is in place. -/
  context : Option ContextId
  /-- The session. -/
  session : SessionId
  /-- The entity. -/
  entity : EntityId
  deriving DecidableEq

/-- What a machine has of the world outside. -/
structure Conversation where
  /-- What each handle stands for. -/
  identities : List (Handle × Identity)
  /-- What was told. -/
  reports : Array Report

namespace Conversation

/-- The conversation of a machine without handles. -/
def empty : Conversation := ⟨[], #[]⟩

/-- What a handle stands for. -/
def identity? (c : Conversation) (h : Handle) : Option Identity := c.identities.lookup h

/-- The conversation that a context has between a session and an entity. -/
def between (c : ContextId) (s : SessionId) (e : EntityId) : Conversation where
  identities := [(.context, .context c), (.session, .session s), (.entity, .entity e)]
  reports := #[]

/-- The conversation in which one more thing was told. -/
def tell (c : Conversation) (r : Report) : Conversation :=
  { c with reports := c.reports.push r }

/-- The conversation in which nothing was told. -/
def quiet (c : Conversation) : Conversation := { c with reports := #[] }

end Conversation

/-- Something that is done in a conversation. -/
abbrev Conversing (α : Type) : Type := StateM Conversation α

namespace Conversing

/-- Tells something. -/
def tell (r : Report) : Conversing Unit := modify fun c => c.tell r

/-- What comes of something that is done without handles and heard by nobody. -/
def alone {α : Type} (x : Conversing α) : α := (x .empty).1

end Conversing

end NpcDialog
