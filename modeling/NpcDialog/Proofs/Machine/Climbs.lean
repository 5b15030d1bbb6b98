import Mathlib.Order.Defs.PartialOrder
import NpcDialog.Dialog.Context
import NpcDialog.Proofs.Machine.Keeps

/-!
# What only grows

What a program was shown cannot be taken back.  It is counted, and no run makes the counts
smaller, whatever the program does.

* `Disclosures` — counts of what was shown, in their order.
* `Machine.Shows` — a later machine, to whose program at least as much was shown.
* `Climbs` — what never takes anything back.
* `climbs_loop`, `climbs_callMain` — runs never do, and neither do calls from outside.
-/

namespace NpcDialog

open Lua
open Conversing (Ensures)

/-- More was shown of neither. -/
instance : Preorder Lua.Disclosures where
  le d e := d.notes ≤ e.notes ∧ d.memory ≤ e.memory
  le_refl d := ⟨Nat.le_refl _, Nat.le_refl _⟩
  le_trans _ _ _ h h' := ⟨Nat.le_trans h.1 h'.1, Nat.le_trans h.2 h'.2⟩

/-- A later machine, to whose program at least as much was shown. -/
structure Lua.Machine.Shows (m m' : Machine) : Prop extends Machine.Keeps m m' where
  shown : m.shown ≤ m'.shown

namespace Lua.Machine

variable {m m' m'' : Machine}

theorem shown_of_seat (same : m'.seat = m.seat) : m'.shown = m.shown :=
  congrArg (·.2.2.2.2) same

/-- The induction is on the changes. -/
theorem shown_of_changes (changes : Changes m m') : m'.shown = m.shown := by
  induction changes with
  | refl => rfl
  | tail before last ih => exact (shown_of_seat last.seat).trans ih

theorem shown_unpark (m : Machine) (id : Nat) : (m.unpark id).shown = m.shown :=
  congrArg (·.2.2.2.2) (m.seat_unpark id)

theorem shown_park (m : Machine) (s : ThreadStatus) : (m.park s).shown = m.shown := rfl

/-- What was shown in a coroutine's turn stays shown behind it. -/
theorem shown_handBack (m inner : Machine) (stop : Stop) :
    (m.handBack stop inner).2.shown = inner.shown := by
  cases stop <;> exact shown_unpark _ _

theorem shown_entered {inner : Machine} {id : Nat} {args : Array Value}
    (begun : m.entered id args = .ok inner) : inner.shown = m.shown := by
  obtain ⟨-, -, control, rfl⟩ := entered_eq begun
  exact shown_unpark _ _

/-- What is shown is counted. -/
theorem shown_le_disclosing (m : Machine) (d : Disclosures) : m.shown ≤ (m.disclosing d).shown :=
  ⟨Nat.le_add_right _ _, Nat.le_add_right _ _⟩

/-- What was shown stays so. -/
theorem bracketed_shows : Bracketed Shows where
  of_change change := ⟨.of_seat change.seat, le_of_eq (shown_of_seat change.seat).symm⟩
  disclosing m d := ⟨bracketed_keeps.disclosing m d, m.shown_le_disclosing d⟩
  trans h h' := ⟨h.toKeeps.trans h'.toKeeps, le_trans h.shown h'.shown⟩
  held h := h.held
  nested h := ⟨bracketed_keeps.nested h.toKeeps, h.shown⟩
  newThread m f := ⟨bracketed_keeps.newThread m f, le_refl _⟩
  turn {m inner inner' id args} stop entered h := by
    refine ⟨bracketed_keeps.turn stop entered h.toKeeps, ?_⟩
    rw [shown_handBack, ← shown_entered entered]
    exact h.shown
  close {m m' id} h := by
    refine ⟨bracketed_keeps.close h.toKeeps, ?_⟩
    have shown : ((m.park .active).unpark id).shown ≤ m'.shown := h.shown
    rw [shown_unpark, shown_park] at shown
    show _ ≤ ((m'.park .finished).unpark m.current).shown
    rwa [shown_unpark, shown_park]

end Lua.Machine

/-- Something that is done with a machine takes nothing back that was shown. -/
def Climbs {α : Type} (machine : α → Machine) (m : Machine) (x : Conversing α) : Prop :=
  Ensures (fun a => m.shown ≤ (machine a).shown) x

section Climbs

variable {α : Type} {machine : α → Machine} {m m' : Machine}

/-- Without a step the count stays. -/
theorem Climbs.pure {a : α} (shown : m.shown ≤ (machine a).shown) :
    Climbs machine m (Pure.pure a) :=
  Ensures.pure shown

theorem Climbs.of_le {x : Conversing α} (h : Climbs machine m' x) (shown : m.shown ≤ m'.shown) :
    Climbs machine m x :=
  fun v => le_trans shown (h v)

/-- Through two runs the count climbs by both. -/
theorem Climbs.bind {β : Type} {machine' : β → Machine} {x : Conversing α} {f : α → Conversing β}
    (hx : Climbs machine m x) (hf : ∀ a, Climbs machine' (machine a) (f a)) :
    Climbs machine' m (x >>= f) :=
  Ensures.bind hx fun a shown => (hf a).of_le shown

variable {run : Runner} (hrun : Runner.Keeps Machine.Shows run)
include hrun

/-- Through a nested call the count climbs. -/
theorem climbs_nestedCall (start : Nat) (f : Value) (args : Array Value) (m : Machine) :
    Climbs Prod.snd m (Machine.nestedCall run start f args m) :=
  fun v => (Machine.bracketed_shows.nestedCall hrun start f args m v).shown

theorem climbs_closeAll (floor n : Nat) (fault : Option Value) (m : Machine) :
    Climbs Prod.snd m (Machine.closeAll run floor n fault m) :=
  fun v => (Machine.bracketed_shows.closeAll hrun floor n fault m v).shown

theorem climbs_finalizeAll (start : Nat) (ids : List Nat) (m : Machine) :
    Climbs id m (Machine.finalizeAll run start ids m) :=
  fun v => (Machine.bracketed_shows.finalizeAll hrun start ids m v).shown

/-- Through a routine the count climbs. -/
theorem climbs_perform (callee : Value) (start : Nat) (r : Routine) (m : Machine) :
    Climbs Prod.snd m (perform run callee start r m) :=
  fun v => (Machine.bracketed_shows.perform hrun callee start r m v).shown

/-- Through a run the count climbs. -/
theorem climbs_loop (n : Nat) (m : Machine) : Climbs Prod.snd m (Machine.loop run n m) :=
  fun v => (Machine.bracketed_shows.loop hrun n m v).shown

end Climbs

/-! ## Calls from outside -/

theorem climbs_abandonCall (f : Fault) (m : Machine) : Climbs Prod.snd m (m.abandonCall f) :=
  fun v => (Machine.bracketed_shows.abandonCall f m v).shown

/-- Through a call of the host the count climbs. -/
theorem climbs_callFrom (f : Value) (args : Array Value) (m : Machine) :
    Climbs Prod.snd m (m.callFrom f args) :=
  fun v => (Machine.bracketed_shows.callFrom m f args v).shown

theorem climbs_failureOf (f : Fault) (m : Machine) :
    Climbs Prod.snd m (Context.failureOf f m) := by
  unfold Context.failureOf
  split
  · exact .pure (le_refl _)
  · split
    · exact .pure (le_refl _)
    · refine .bind (climbs_callFrom _ _ m) ?_
      rintro ⟨result, m'⟩
      cases result with
      | error e => exact .pure (le_refl _)
      | ok vs =>
        dsimp only
        split <;> exact .pure (le_refl _)

end NpcDialog
