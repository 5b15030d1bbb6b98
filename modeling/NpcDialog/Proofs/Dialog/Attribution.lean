import NpcDialog.Proofs.Dialog.Reports

/-!
# Who an event is from

A callback takes the session and the entity of an event from handles, and a
script can move these from one global to another.  What a script cannot do is
to look behind a handle: the identities are parts of the conversation, which a
machine changes only by telling something.  So as long as a session's handle
stands for one session only, and an entity's for one entity only, so do the
events.

The same holds of two conversations at once.  They may be those of different
sessions and entities; if only the same handles stand for the same kinds of
things in them, a script does the same in both, and the events differ in
nothing but the session and the entity.

* `Paired` — two conversations that differ in who takes part in them.
* `respected_paired` — callbacks cannot tell them apart.
-/

namespace NpcDialog

open Lua

/-! ## Pairs of conversations -/

section Pairs

variable (s : SessionId) (e : EntityId) (s' : SessionId) (e' : EntityId)

/-- What one handle may stand for in two conversations. -/
inductive Counterparts : Option Identity → Option Identity → Prop
  /-- Nothing. -/
  | absent : Counterparts none none
  /-- A context. -/
  | context (c c' : ContextId) : Counterparts (some (.context c)) (some (.context c'))
  /-- The session. -/
  | session : Counterparts (some (.session s)) (some (.session s'))
  /-- The entity. -/
  | entity : Counterparts (some (.entity e)) (some (.entity e'))

/-- Two conversations, the one of `s` with `e`, the other of `s'` with `e'`, that
differ in nothing else but the contexts. -/
structure Paired (v w : Conversation) : Prop where
  /-- Handles stand for counterparts. -/
  identities : ∀ h, Counterparts s e s' e' (v.identity? h) (w.identity? h)
  /-- The events of the one. -/
  left : Attributed s e v.reports.toList
  /-- The events of the other. -/
  right : Attributed s' e' w.reports.toList
  /-- The events are of the same kinds. -/
  kinds : Report.kinds v.reports.toList = Report.kinds w.reports.toList

end Pairs

variable {s : SessionId} {e : EntityId} {s' : SessionId} {e' : EntityId}

namespace Paired

variable {v w : Conversation}

/-- The conversations of two new contexts are a pair. -/
theorem between (c c' : ContextId) : Paired s e s' e' (.between c s e) (.between c' s' e') where
  identities := by
    intro h
    cases h with
    | context => exact .context c c'
    | session => exact .session
    | entity => exact .entity
  left := by simp [Conversation.between]
  right := by simp [Conversation.between]
  kinds := by simp [Conversation.between]

theorem quiet (h : Paired s e s' e' v w) : Paired s e s' e' v.quiet w.quiet :=
  ⟨h.identities, by simp [Conversation.quiet], by simp [Conversation.quiet],
    by simp [Conversation.quiet]⟩

theorem tell_line (h : Paired s e s' e' v w) (l l' : LogLine) :
    Paired s e s' e' (v.tell (.line l)) (w.tell (.line l')) where
  identities := h.identities
  left := by simp [Conversation.tell, h.left]
  right := by simp [Conversation.tell, h.right]
  kinds := by simp [Conversation.tell, h.kinds]

theorem tell_event (h : Paired s e s' e' v w) (k : EventKind) :
    Paired s e s' e' (v.tell (.event ⟨s, e, k⟩)) (w.tell (.event ⟨s', e', k⟩)) where
  identities := h.identities
  left := by simp [Conversation.tell, h.left]
  right := by simp [Conversation.tell, h.right]
  kinds := by simp [Conversation.tell, h.kinds]

theorem tell_process (h : Paired s e s' e' v w) (u : ProcessUse) :
    Paired s e s' e' (v.tell (.process u)) (w.tell (.process u)) where
  identities := h.identities
  left := by simp [Conversation.tell, h.left]
  right := by simp [Conversation.tell, h.right]
  kinds := by simp [Conversation.tell, h.kinds]

theorem ambient (h : Paired s e s' e' v w) (m : Machine) (k : Handle) :
    Counterparts s e s' e' (m.ambient? v k) (m.ambient? w k) := by
  unfold Machine.ambient?
  split
  · exact h.identities _
  · exact .absent

/-- Either handles are missing on both sides, or the scopes are of the session
and the entity of their sides. -/
theorem scope (h : Paired s e s' e' v w) (m : Machine) :
    (m.scope? v = none ∧ m.scope? w = none) ∨
      ∃ c c', m.scope? v = some ⟨c, s, e⟩ ∧ m.scope? w = some ⟨c', s', e'⟩ := by
  have first := h.ambient m .session
  have second := h.ambient m .entity
  unfold Machine.scope?
  generalize m.ambient? v .session = a, m.ambient? w .session = a' at first
  generalize m.ambient? v .entity = b, m.ambient? w .entity = b' at second
  cases first with
  | session =>
    cases second with
    | entity => exact .inr ⟨_, _, rfl, rfl⟩
    | _ => exact .inl ⟨rfl, rfl⟩
  | _ => exact .inl ⟨rfl, rfl⟩

end Paired

/-- A callback cannot tell paired conversations apart.  It finds a scope in both
or in none of them, and what it tells is an event of the same kind, if it is one. -/
theorem respected_paired : Respected (Paired s e s' e') := by
  refine ⟨?_, fun u v w h => ⟨rfl, h.tell_process u⟩⟩
  intro m c args v w h
  rcases h.scope m with ⟨hv, hw⟩ | ⟨k, k', hv, hw⟩
  · rw [Machine.invoke_of_none hv, Machine.invoke_of_none hw]
    exact ⟨rfl, h.tell_line _ _⟩
  · rw [Machine.invoke_of_some hv, Machine.invoke_of_some hw]
    have called := h.tell_line (.called c e s k) (.called c e' s' k')
    rcases answer_cases ⟨k, s, e⟩ ⟨k', s', e'⟩ c args with ⟨l, b, -, hl, hr⟩ | ⟨kind, b, hl, hr⟩
    · rw [hl, hr]
      exact ⟨rfl, called.tell_line l l⟩
    · rw [hl, hr]
      exact ⟨rfl, called.tell_event kind⟩

end NpcDialog
