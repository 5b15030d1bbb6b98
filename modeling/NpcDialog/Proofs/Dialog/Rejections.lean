import NpcDialog.Proofs.Dialog.Furnishing
import NpcDialog.Proofs.Dialog.Veiled

/-!
# Rejected requests

A context rejects a request to run a script while another one is still to go on,
and when the script cannot be started; it rejects a request to let its script go on
when there is none that waits.  A rejected request brings about no event and leaves
the context and the host as they were, but for traces of a vain attempt in the memory
in use.  So it makes no difference to anything later unless a script asks how much
memory is in use: whatever of it is left out of a history, the rest of the history is
the same.

* `Context.rejects` — is a request rejected?
* `Happening`, `Context.meetAll` — a history of a context.
* `Context.remaining` — the history without some of its rejected requests.
* `rejected_requests_invisible` — the result.
-/

namespace NpcDialog

open Lua.Veil (weight)

/-- Something that happens to a context or around it. -/
inductive Happening where
  /-- The context is asked for something. -/
  | request (q : Request)
  /-- Others do something to the host. -/
  | others (f : Host → Host)

/-- What comes of a request. -/
structure Served where
  /-- Was it rejected? -/
  rejected : Bool
  /-- The answer. -/
  answer : Answer
  /-- The events, in order. -/
  events : List Event

/-- Where a history has led, and what came of the requests. -/
structure Course where
  /-- The context. -/
  context : Context
  /-- The host. -/
  host : Host
  /-- What came of the requests, in order. -/
  replies : List Served

namespace Context

/-- Is a request rejected? -/
def rejects (c : Context) (h : Host) : Request → Bool
  | .run code => !(c.run code h).value.1
  | .resume => c.state != some .suspended

/-- Something happens. -/
def meet (c : Context) (h : Host) : Happening → Course
  | .request q =>
    let told := c.serve q h
    ⟨told.value.2, told.host, [⟨c.rejects h q, told.value.1, Report.events told.reports⟩]⟩
  | .others f => ⟨c, f h, []⟩

/-- One thing happens after the other. -/
def meetAll (c : Context) (h : Host) : List Happening → Course
  | [] => ⟨c, h, []⟩
  | x :: xs =>
    let first := c.meet h x
    let rest := meetAll first.context first.host xs
    { rest with replies := first.replies ++ rest.replies }

/-- Is it a rejected request with a mark? -/
def leavesOut (c : Context) (h : Host) : Happening × Bool → Bool
  | (.request q, marked) => marked && c.rejects h q
  | (.others _, _) => false

/-- A history without those rejected requests that have a mark. -/
def remaining (c : Context) (h : Host) : List (Happening × Bool) → List Happening
  | [] => []
  | x :: xs =>
    let first := c.meet h x.1
    let rest := remaining first.context first.host xs
    if c.leavesOut h x then rest else x.1 :: rest

/-- What comes of all requests of a history but those rejected ones that have a
mark. -/
def remainingReplies (c : Context) (h : Host) : List (Happening × Bool) → List Served
  | [] => []
  | x :: xs =>
    let first := c.meet h x.1
    let rest := remainingReplies first.context first.host xs
    if c.leavesOut h x then rest else first.replies ++ rest

variable (c : Context) (h : Host)

/-- A rejected request leaves everything as it was, but for traces in the memory. -/
theorem serve_of_rejects {q : Request} (rejected : c.rejects h q = true) :
    (∃ n, (c.serve q h).value.2 = { c with machine := { c.machine with drift := n } }) ∧
      (c.serve q h).host = h ∧ Report.events (c.serve q h).reports = [] := by
  cases q with
  | run code =>
    have exit := c.ran code h
    have refused : (c.run code h).value.1 = false := by simpa [rejects] using rejected
    simp only [serve, Action.bind_apply, Action.pure_apply, List.append_nil]
    generalize c.run code h = told at exit refused
    cases exit with
    | refused st state waits => exact ⟨⟨c.machine.drift, rfl⟩, rfl, by simp⟩
    | unstarted f m idle launched =>
      obtain ⟨n, rfl⟩ := launch_error launched
      exact ⟨⟨n, rfl⟩, rfl, by simp⟩
    | started m t => cases refused
  | resume =>
    have exit := c.resumed h
    have idle : c.state ≠ some .suspended := by simpa [rejects] using rejected
    simp only [serve, Action.bind_apply, Action.pure_apply, List.append_nil]
    generalize c.resume h = told at exit
    cases exit with
    | absent none_ => exact ⟨⟨c.machine.drift, rfl⟩, rfl, rfl⟩
    | stepped t task waits =>
      have waiting : c.state = some .suspended := by simp [state, task, waits]
      exact absurd waiting idle
    | ignored t task idle => exact ⟨⟨c.machine.drift, rfl⟩, rfl, by simp⟩

theorem meet_of_leavesOut {x : Happening × Bool} (out : c.leavesOut h x = true) :
    (∃ n, (c.meet h x.1).context = { c with machine := { c.machine with drift := n } }) ∧
      (c.meet h x.1).host = h := by
  obtain ⟨happening, marked⟩ := x
  cases happening with
  | others f => cases out
  | request q =>
    have rejected : c.rejects h q = true := (Bool.and_eq_true_iff.1 out).2
    obtain ⟨same, quiet, -⟩ := c.serve_of_rejects h rejected
    exact ⟨same, quiet⟩

/-- Rejected requests bring about no event: the induction is on the history. -/
theorem events_of_rejected (xs : List Happening) :
    ∀ r ∈ (c.meetAll h xs).replies, r.rejected = true → r.events = [] := by
  induction xs generalizing c h with
  | nil => exact fun r mem => absurd mem List.not_mem_nil
  | cons x xs ih =>
    intro r mem rejected
    rcases List.mem_append.1 mem with first | later
    · cases x with
      | others f => exact absurd first List.not_mem_nil
      | request q =>
        obtain rfl := List.mem_singleton.1 first
        exact (c.serve_of_rejects h rejected).2.2
    · exact ih _ _ r later rejected

/-! ## Histories behind a veil -/

/-- What a script was shown of the memory in use stays so. -/
theorem revealed_le_meet (x : Happening) :
    weight.revealed c.machine ≤ weight.revealed (c.meet h x).context.machine := by
  cases x with
  | others f => exact Nat.le_refl _
  | request q => exact revealed_le_serve weight c q h

theorem revealed_le_meetAll (xs : List Happening) :
    weight.revealed c.machine ≤ weight.revealed (c.meetAll h xs).context.machine := by
  induction xs generalizing c h with
  | nil => exact Nat.le_refl _
  | cons x xs ih => exact Nat.le_trans (c.revealed_le_meet h x) (ih _ _)

variable {c h}

/-- Two contexts whose memory is out of sight reject the same. -/
theorem Veiled.rejects {d : Context} (v : Veiled weight c d) (q : Request) :
    c.rejects h q = d.rejects h q := by
  cases q with
  | run code => simp only [Context.rejects, (v.run (.same (.run code)) h).1]
  | resume => simp only [Context.rejects, v.state]

/-- They meet the same, as long as the memory in use does not come to light. -/
theorem Veiled.meet {d : Context} (v : Veiled weight c d) (x : Happening)
    (quiet : weight.revealed (c.meet h x).context.machine = weight.revealed c.machine ∨
      weight.revealed (d.meet h x).context.machine = weight.revealed d.machine) :
    (c.meet h x).replies = (d.meet h x).replies ∧ (c.meet h x).host = (d.meet h x).host ∧
      Veiled weight (c.meet h x).context (d.meet h x).context := by
  cases x with
  | others f => exact ⟨rfl, rfl, v⟩
  | request q =>
    obtain ⟨answer, host, events, after⟩ := (v.serve (.same q) h).2.2 quiet
    refine ⟨?_, host, after⟩
    simp only [Context.meet, v.rejects q, answer, events]

/-- The induction is on the history.  What is left out leaves the context as it was but for
its memory, so the rest of the history is the same with it and without. -/
theorem Veiled.meetAll_remaining {d : Context} (v : Veiled weight c d)
    (xs : List (Happening × Bool))
    (quiet : weight.revealed (c.meetAll h (xs.map Prod.fst)).context.machine =
        weight.revealed c.machine ∨
      weight.revealed (d.meetAll h (c.remaining h xs)).context.machine =
        weight.revealed d.machine) :
    (d.meetAll h (c.remaining h xs)).replies = c.remainingReplies h xs ∧
      (d.meetAll h (c.remaining h xs)).host = (c.meetAll h (xs.map Prod.fst)).host ∧
      Veiled weight (c.meetAll h (xs.map Prod.fst)).context
        (d.meetAll h (c.remaining h xs)).context := by
  induction xs generalizing c d h with
  | nil => exact ⟨rfl, rfl, v⟩
  | cons x xs ih =>
    by_cases out : c.leavesOut h x = true
    · obtain ⟨⟨n, same⟩, host⟩ := c.meet_of_leavesOut h out
      have after : Veiled weight (c.meet h x.1).context d := by
        rw [same]
        exact (Veiled.of_drift rfl c n).trans v
      have rest := ih (h := (c.meet h x.1).host) after
      simp only [remaining, remainingReplies, out, if_true, List.map_cons, Context.meetAll] at quiet ⊢
      rw [after.revealed.trans v.revealed.symm, host] at rest
      rw [host] at quiet ⊢
      exact rest quiet
    · have kept : c.leavesOut h x = false := by simpa using out
      simp only [remaining, remainingReplies, kept, Bool.false_eq_true, if_false, List.map_cons,
        Context.meetAll] at quiet ⊢
      have first := c.revealed_le_meet h x.1
      have second := d.revealed_le_meet h x.1
      have later := (c.meet h x.1).context.revealed_le_meetAll (c.meet h x.1).host (xs.map Prod.fst)
      have later' := (d.meet h x.1).context.revealed_le_meetAll (d.meet h x.1).host
        (remaining (c.meet h x.1).context (c.meet h x.1).host xs)
      obtain ⟨replies, hosts, after⟩ := v.meet (h := h) x.1 (by omega)
      have rest := ih (h := (c.meet h x.1).host) after
      rw [hosts] at rest quiet later later' ⊢
      rw [replies]
      have same := v.revealed
      have same' := after.revealed
      obtain ⟨told, ended, alike⟩ := rest (by omega)
      exact ⟨by rw [told], ended, alike⟩

end Context

/-- The memory in use does not come to light: no script asks for it from one context to a
later one. -/
def Context.Unweighed (c d : Context) : Prop := d.machine.shown.memory = c.machine.shown.memory

instance (c d : Context) : Decidable (c.Unweighed d) :=
  inferInstanceAs (Decidable (d.machine.shown.memory = c.machine.shown.memory))

/-- Rejected requests are invisible, as long as no script asks how much memory is in use.
Whichever of the rejected requests are left out of a history, what comes of all other
requests is the same, answers and events, and the context ends in the same state with the
same number of suspensions, in the same host.  And a rejected request brings about no event
itself. -/
theorem rejected_requests_invisible (c : Context) (h : Host) (xs : List (Happening × Bool))
    (unweighed : c.Unweighed (c.meetAll h (xs.map Prod.fst)).context ∨
      c.Unweighed (c.meetAll h (c.remaining h xs)).context) :
    let full := c.meetAll h (xs.map Prod.fst)
    let thinned := c.meetAll h (c.remaining h xs)
    thinned.replies = c.remainingReplies h xs ∧
      thinned.context.state = full.context.state ∧
      thinned.context.suspensions = full.context.suspensions ∧
      thinned.host = full.host ∧
      ∀ r ∈ full.replies, r.rejected = true → r.events = [] := by
  intro full thinned
  have revealed (m : Lua.Machine) : weight.revealed m = m.shown.memory := Nat.zero_add _
  obtain ⟨replies, host, alike⟩ := (Context.Veiled.refl weight c).meetAll_remaining (h := h) xs
    (by simpa only [revealed, Context.Unweighed] using unweighed)
  refine ⟨replies, alike.state.symm, ?_, host, c.events_of_rejected h _⟩
  rw [Context.suspensions, Context.suspensions, alike.task]

/-- A script is run twice, with a vain attempt to run bytes that are no code in between,
and a vain attempt to let it go on behind it. -/
def vainAttempts (code : Bytecode) : List (Happening × Bool) :=
  [(.request (.run code), false), (.request (.run ⟨ByteArray.empty⟩), true),
    (.request (.run code), false), (.request .resume, true)]

/-- What is heard of the script, with the attempts and without, and whether it asked for the
memory in use. -/
def heardThrough (code : Bytecode) (c : Context) : List (List Event) × List (List Event) × Bool :=
  let xs := vainAttempts code
  let full := c.meetAll (.start .empty) (xs.map Prod.fst)
  let thinned := c.meetAll (.start .empty) (c.remaining (.start .empty) xs)
  (full.replies.map Served.events, thinned.replies.map Served.events,
    decide (c.Unweighed full.context))

/-- A script that only says something. -/
theorem saying_heard :
    (do
      let code ← Bytecode.ofSource? "mes('Hi')"
      let c ← Context.furnish .default ⟨1⟩ ⟨2⟩ (.start .empty)
      return heardThrough code c) =
      some ([[⟨⟨1⟩, ⟨2⟩, .message "Hi"⟩], [], [⟨⟨1⟩, ⟨2⟩, .message "Hi"⟩], []],
        [[⟨⟨1⟩, ⟨2⟩, .message "Hi"⟩], [⟨⟨1⟩, ⟨2⟩, .message "Hi"⟩]], true) := by
  decide +kernel

theorem rejected_requests_invisible_saying :
    ∃ code c, Bytecode.ofSource? "mes('Hi')" = some code ∧
      (Context.create .default ⟨1⟩ ⟨2⟩ (.start .empty)).value = .ok c ∧
      let xs := vainAttempts code
      let full := c.meetAll (.start .empty) (xs.map Prod.fst)
      let thinned := c.meetAll (.start .empty) (c.remaining (.start .empty) xs)
      full.replies.length = 4 ∧ thinned.replies.length = 2 ∧
        thinned.replies = c.remainingReplies (.start .empty) xs ∧
        thinned.context.state = full.context.state := by
  obtain ⟨code, known, heard⟩ := Option.bind_eq_some_iff.1 saying_heard
  obtain ⟨c, furnished, heard⟩ := Option.bind_eq_some_iff.1 heard
  have made := congrArg Told.value (Context.create_of_furnish furnished)
  have heard := Option.some.inj heard
  rw [heardThrough, Prod.mk.injEq, Prod.mk.injEq] at heard
  obtain ⟨full, thinned, unweighed⟩ := heard
  obtain ⟨same, state, -⟩ := rejected_requests_invisible c (.start .empty) (vainAttempts code)
    (.inl (of_decide_eq_true unweighed))
  refine ⟨code, c, known, made, ?_, ?_, same, state⟩
  · simpa using congrArg List.length full
  · simpa using congrArg List.length thinned

/-- A script that says how much memory is in use. -/
theorem weight_heard :
    (do
      let code ← Bytecode.ofSource? "mes(collectgarbage('count'))"
      let c ← Context.furnish .default ⟨1⟩ ⟨2⟩ (.start .empty)
      let xs := vainAttempts code
      let thinned := c.meetAll (.start .empty) (c.remaining (.start .empty) xs)
      return decide (thinned.replies.map Served.events =
        (c.remainingReplies (.start .empty) xs).map Served.events)) = some false := by
  decide +kernel

/-- So a rejected request is noticed by a script that asks how much memory is in use, even if
there is no bound for it. -/
theorem rejected_request_is_weighed :
    ∃ (config : Config) (code : Bytecode) (c : Context), config.memoryLimit = none ∧
      (Context.create config ⟨1⟩ ⟨2⟩ (.start .empty)).value = .ok c ∧
      let xs := vainAttempts code
      (c.meetAll (.start .empty) (c.remaining (.start .empty) xs)).replies ≠
        c.remainingReplies (.start .empty) xs := by
  obtain ⟨code, -, heard⟩ := Option.bind_eq_some_iff.1 weight_heard
  obtain ⟨c, furnished, heard⟩ := Option.bind_eq_some_iff.1 heard
  have made := congrArg Told.value (Context.create_of_furnish furnished)
  exact ⟨.default, code, c, rfl, made, fun same =>
    of_decide_eq_false (Option.some.inj heard) (congrArg (List.map Served.events) same)⟩

end NpcDialog
