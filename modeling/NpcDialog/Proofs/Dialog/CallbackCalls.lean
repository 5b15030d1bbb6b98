import NpcDialog.Proofs.Dialog.TextLoaders
import NpcDialog.Proofs.Machine.SuspenderCalls
import NpcDialog.Proofs.Text.Decoding

/-!
# What a call of a callback does

Whether a call of `mes`, `next` or `close` does anything depends on two variables only:
the globals that hold the handles of the session and the entity, read without asking any
metatable.  If they are in place, the player hears exactly what the call is for, and only
`next` goes on to suspend the coroutine; otherwise nothing is heard and nothing happens.
What these functions have captured is sealed, so whatever a script does to its
environment, they do the same at all times.

* `Callback.tells` — what is heard of a call.
* `Machine.HoldsHandles` — the handles are in place.
* `Context.Answers` — what comes of a call.
* `Context.AnswersCalls` — all calls in a machine come to that.
* `callbacks_answer` — the result.
-/

namespace NpcDialog

open Lua Lua.Machine
open Bytes (ofText)

/-! ## What is heard -/

/-- What the player hears of a call of a callback, if the handles are in place. -/
def Callback.tells : Callback → Array Value → List EventKind
  | .message, args =>
    match (args[0]? : Option Value) with
    | some (.str text) => [.message text.toText]
    | some (.int n) => [.message (Number.toText (.int n)).toText]
    | some (.float x) => [.message (Number.toText (.float x)).toText]
    | _ => []
  | .advance, _ => [.advance]
  | .close, _ => [.close]

/-- A text is heard as it is, whatever the other arguments are. -/
theorem Callback.tells_text (text : String) (others : Array Value) :
    Callback.message.tells (#[.ofText text] ++ others) = [.message text] := by
  have first : (#[Value.ofText text] ++ others)[0]? = some (.ofText text) := by simp
  rw [tells, first]
  show [EventKind.message (ofText text).toText] = _
  rw [Bytes.toText_ofText]

/-- What a callback answers in a scope is what is heard of it, and whether it suspends
does not depend on its arguments. -/
theorem InteractionScope.events_answer (s : InteractionScope) (c : Callback) (args : Array Value) :
    Report.events [(s.answer c args).1] = (c.tells args).map (fun k => ⟨s.session, s.entity, k⟩) ∧
      (s.answer c args).2 = c.suspends := by
  cases c with
  | message =>
    unfold InteractionScope.answer Callback.tells
    dsimp only
    cases args[0]? with
    | none => exact ⟨rfl, rfl⟩
    | some v => cases v <;> exact ⟨rfl, rfl⟩
  | advance => exact ⟨rfl, rfl⟩
  | close => exact ⟨rfl, rfl⟩

/-! ## Handles in place -/

/-- The handles of a session and of an entity are in the globals that are reserved for
them. -/
structure Lua.Machine.HoldsHandles (m : Machine) : Prop where
  session : m.heap.rawGetStr m.heap.globals (ofText "__session__") = .handle .session
  entity : m.heap.rawGetStr m.heap.globals (ofText "__entity__") = .handle .entity

namespace Lua.Machine

variable {m m' : Machine} {v : Conversation} {k : ContextId} {s : SessionId} {e : EntityId}

theorem HoldsHandles.of_sameThings (h : m.HoldsHandles) (same : m.SameThings m') :
    m'.HoldsHandles := by
  obtain ⟨used, same⟩ := same
  refine ⟨?_, ?_⟩ <;> rw [same]
  · exact h.session
  · exact h.entity

theorem holdsHandles_iff (same : m.SameThings m') : m'.HoldsHandles ↔ m.HoldsHandles := by
  obtain ⟨used, heap⟩ := same
  exact ⟨fun h => h.of_sameThings ⟨m.heap.used, by rw [heap]⟩, fun h => h.of_sameThings ⟨used, heap⟩⟩

section Scope

variable (known : v.identities = (Conversation.between k s e).identities)
include known

theorem ambient_between (h : Handle) : m.ambient? v h = m.ambient? (.between k s e) h := by
  unfold ambient? Conversation.identity?
  rw [known]

theorem session_between :
    m.heap.rawGetStr m.heap.globals (ofText "__session__") = .handle .session ∧
        (m.ambient? v .session).bind Identity.session? = some s ∨
      m.heap.rawGetStr m.heap.globals (ofText "__session__") ≠ .handle .session ∧
        (m.ambient? v .session).bind Identity.session? = none := by
  rw [ambient_between known, ambient?, Handle.globalName]
  cases m.heap.rawGetStr m.heap.globals (ofText "__session__") with
  | handle found =>
    cases found with
    | session => exact .inl ⟨rfl, rfl⟩
    | _ => exact .inr ⟨nofun, rfl⟩
  | _ => exact .inr ⟨nofun, rfl⟩

theorem entity_between :
    m.heap.rawGetStr m.heap.globals (ofText "__entity__") = .handle .entity ∧
        (m.ambient? v .entity).bind Identity.entity? = some e ∨
      m.heap.rawGetStr m.heap.globals (ofText "__entity__") ≠ .handle .entity ∧
        (m.ambient? v .entity).bind Identity.entity? = none := by
  rw [ambient_between known, ambient?, Handle.globalName]
  cases m.heap.rawGetStr m.heap.globals (ofText "__entity__") with
  | handle found =>
    cases found with
    | entity => exact .inl ⟨rfl, rfl⟩
    | _ => exact .inr ⟨nofun, rfl⟩
  | _ => exact .inr ⟨nofun, rfl⟩

/-- A callback finds the scope of its context, or none. -/
theorem scope_between :
    m.HoldsHandles ∧ (∃ found, m.scope? v = some ⟨found, s, e⟩) ∨
      ¬ m.HoldsHandles ∧ m.scope? v = none := by
  unfold scope?
  rcases session_between (m := m) known with ⟨session, found⟩ | ⟨session, found⟩
  · rcases entity_between (m := m) known with ⟨entity, found'⟩ | ⟨entity, found'⟩
    · rw [found, found']
      exact .inl ⟨⟨session, entity⟩, _, rfl⟩
    · rw [found, found']
      exact .inr ⟨fun h => entity h.entity, rfl⟩
  · rw [found]
    exact .inr ⟨fun h => session h.session, rfl⟩

end Scope

end Lua.Machine

/-! ## What comes of a call -/

namespace Context

variable {c : Context}

/-- This is what is heard in a conversation of the context since. -/
structure Hears (c : Context) (v v' : Conversation) (kinds : List EventKind) : Prop where
  identities : v'.identities = v.identities
  events : Report.events v'.reports.toList =
    Report.events v.reports.toList ++ kinds.map fun k => ⟨c.session, c.entity, k⟩

/-- The conversation is one of the context. -/
def Knows (c : Context) (v : Conversation) : Prop :=
  v.identities = (Conversation.between c.id c.session c.entity).identities

/-- What comes of a call of a callback in a conversation: whether the script is to
suspend, and the conversation after it. -/
inductive Answers (c : Context) (m : Machine) (callback : Callback) (args : Array Value)
    (v : Conversation) : Bool → Conversation → Prop
  /-- The handles are not in place, and nothing is heard. -/
  | outside {w : Conversation} (missing : ¬ m.HoldsHandles) (silent : c.Hears v w []) :
    Answers c m callback args v false w
  /-- They are, and this is heard. -/
  | inside {w : Conversation} (there : m.HoldsHandles) (heard : c.Hears v w (callback.tells args)) :
    Answers c m callback args v callback.suspends w

theorem answers_invoke {v : Conversation} (known : c.Knows v) (m : Machine) (callback : Callback)
    (args : Array Value) :
    c.Answers m callback args v (m.invoke callback args v).1 (m.invoke callback args v).2 := by
  rcases scope_between (m := m) known with ⟨there, found, scope⟩ | ⟨missing, scope⟩
  · rw [invoke_of_some scope]
    obtain ⟨events, suspends⟩ := InteractionScope.events_answer ⟨found, c.session, c.entity⟩ callback args
    rw [suspends]
    refine .inside there ⟨rfl, ?_⟩
    simp [Conversation.tell, events]
  · rw [invoke_of_none scope]
    refine .outside missing ⟨rfl, ?_⟩
    simp [Conversation.tell]

/-- Callbacks keep a conversation one of the context, and so does every run. -/
theorem knows_run {v : Conversation} (known : c.Knows v) (n : Nat) (m : Machine) :
    c.Knows (runWithin n m v).2 := by
  have respected : Respected fun v w => v = w ∧ c.Knows v := by
    refine .of_invariant (fun m callback args v known => ?_) fun u v known => known
    have heard := answers_invoke known m callback args
    generalize (m.invoke callback args v).1 = suspends at heard
    generalize (m.invoke callback args v).2 = w at heard ⊢
    cases heard with
    | outside missing silent => exact silent.identities.trans known
    | inside there heard => exact heard.identities.trans known
  exact (respected.runWithin n m v v ⟨rfl, known⟩).2.2

/-- What calls of the callbacks come to in a machine, whatever their arguments are. -/
structure AnswersCalls (c : Context) (m : Machine) : Prop where
  /-- A call of an operation gives back whether the script is to suspend, unless a library
  function makes it in the middle of too many others. -/
  operation : ∀ callback args start deliver nested run v, c.Knows v →
    m.control = .call (.builtin (.host callback)) args start deliver nested →
    (m.IsTooDeep nested ∧ ∃ m' f, m.step run v = (.next m', v) ∧ m'.control = .raise f) ∨
      ∃ suspends w, m.step run v =
          (.next { m with control := .give #[.bool suspends] deliver }, w) ∧
        c.Answers m callback args v suspends w
  /-- A call of the function around the one that suspends the script ends without results,
  or does that, with the function that it has captured. -/
  next : ∀ s run v, c.Knows v → Comes run (m.callAt 5 s) v fun y w =>
    ∃ suspends, c.Answers m .advance (m.argsAt s).values v suspends w ∧
      (suspends = false ∧ y.EndedAt s #[] ∨ suspends = true ∧ ∃ slot, y.YieldsAt s slot)

theorem answersCalls_of_isWrapper {m : Machine} {f : Closure} (h : m.IsWrapper 5 f) :
    c.AnswersCalls m where
  operation callback args start deliver nested run v known control := by
    by_cases deep : m.IsTooDeep nested
    · exact .inl ⟨deep, step_tooDeep control deep run v⟩
    · exact .inr ⟨_, _, step_callback control deep run v, answers_invoke known m callback args⟩
  next s run v known := by
    refine (comes_notifies h s run v).bind ?_
    rintro y v ⟨rfl, things, a, notifies, deliver, depth⟩
    have heard := answers_invoke known y .advance (m.argsAt s).values
    have here {suspends : Bool} {w : Conversation}
        (heard : c.Answers y .advance (m.argsAt s).values v suspends w) :
        c.Answers m .advance (m.argsAt s).values v suspends w := by
      cases heard with
      | outside missing silent => exact .outside (fun there => missing (there.of_sameThings things)) silent
      | inside there heard => exact .inside ((holdsHandles_iff things).1 there) heard
    cases scope : y.scope? v with
    | none =>
      rw [invoke_of_none scope] at heard
      obtain ⟨k, x, leads, leaving⟩ := notifies.declined run scope
      refine .after leads (.here ⟨false, here heard, .inl ⟨rfl, x, a, a.base, leaving, deliver, depth, rfl⟩⟩)
    | some found =>
      rw [invoke_of_some scope] at heard
      refine .after (notifies.leads run scope) (.here ⟨true, here heard, .inr ⟨rfl, a.base, ?_⟩⟩)
      exact notifies.accepted deliver depth

end Context

/-! ## Callbacks in place -/

namespace Lua.Machine

/-- The callbacks are the globals with their names, and what suspends a coroutine is where
the function around a callback looks for it when it is made. -/
structure NamesCallbacks (m : Machine) : Prop where
  message : m.heap.rawGetStr m.heap.globals (ofText "mes") = .builtin (.host .message)
  advance : m.heap.rawGetStr m.heap.globals (ofText "next") = .closure 5
  close : m.heap.rawGetStr m.heap.globals (ofText "close") = .builtin (.host .close)
  yield : ∃ id, m.heap.rawGetStr m.heap.globals (ofText "coroutine") = .table id ∧
    m.heap.rawGetStr id (ofText "yield") = .builtin .coYield

/-- The function around the callback that lets the player advance is in place. -/
structure HasWrapper (m : Machine) : Prop where
  notify : m.HasGuard 5 FunctionCode.Wraps 0 (.builtin (.host .advance))
  yield : m.HasGuard 5 FunctionCode.Wraps 1 (.builtin .coYield)

variable {m : Machine}

theorem HasWrapper.inherit {m' : Machine} (h : m.HasWrapper) (later : m.Inherits m') : m'.HasWrapper :=
  ⟨h.notify.inherit later, h.yield.inherit later⟩

theorem HasWrapper.isWrapper (h : m.HasWrapper) : ∃ c, m.IsWrapper 5 c := by
  obtain ⟨c, found, wraps, notify⟩ := h.notify
  obtain ⟨c', found', -, yield⟩ := h.yield
  obtain rfl : c = c' := Option.some.inj (found.symm.trans found')
  exact ⟨c, found, wraps, notify.value, yield.value⟩

/-- Are the callbacks the globals with their names? -/
def namesCallbacks (m : Machine) : Bool :=
  (m.heap.rawGetStr m.heap.globals (ofText "mes")).callee? = some (.inl (.host .message)) &&
    m.hasGlobal "next" 5 &&
    (m.heap.rawGetStr m.heap.globals (ofText "close")).callee? = some (.inl (.host .close)) &&
    match m.heap.rawGetStr m.heap.globals (ofText "coroutine") with
    | .table id => (m.heap.rawGetStr id (ofText "yield")).callee? = some (.inl .coYield)
    | _ => false

theorem namesCallbacks_of_eq_true (h : m.namesCallbacks = true) : m.NamesCallbacks := by
  simp only [namesCallbacks, hasGlobal, Bool.and_eq_true, decide_eq_true_eq] at h
  obtain ⟨⟨⟨message, advance⟩, close⟩, yield⟩ := h
  refine ⟨Value.eq_ofCallee message, Value.eq_ofCallee advance, Value.eq_ofCallee close, ?_⟩
  split at yield
  · next id there => exact ⟨id, there, Value.eq_ofCallee (of_decide_eq_true yield)⟩
  · cases yield

theorem NamesCallbacks.within (h : m.NamesCallbacks) (files : FileTree) (limit : Option Nat) :
    (m.within files limit).NamesCallbacks := ⟨h.message, h.advance, h.close, h.yield⟩

/-- The preparation of a machine puts them there. -/
theorem wrapper_equipped_empty :
    (equipped .empty).hasGuard 5 FunctionCode.Wraps 0 (.inl (.host .advance)) = true ∧
      (equipped .empty).hasGuard 5 FunctionCode.Wraps 1 (.inl .coYield) = true ∧
      (equipped .empty).bindHandles.namesCallbacks = true := by
  rw [equipped_eq_furnished]
  decide +kernel

end Lua.Machine

theorem Context.hasWrapper_create {config : Config} {s : SessionId} {e : EntityId} {h : Host}
    {c : Context} (made : (create config s e h).value = .ok c) :
    c.machine.HasWrapper ∧ c.machine.NamesCallbacks := by
  obtain ⟨notify, yield, names⟩ := wrapper_equipped_empty
  rw [machine_create made]
  have before : (equipped .empty).HasWrapper := ⟨hasGuard_of_eq_true notify, hasGuard_of_eq_true yield⟩
  exact ⟨before.inherit ((Inherits.bindHandles _).trans (.within _ _ _)),
    (namesCallbacks_of_eq_true names).within _ _⟩

end NpcDialog
