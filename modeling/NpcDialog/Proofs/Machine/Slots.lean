import NpcDialog.Proofs.Machine.Suspender

/-!
# What lies in the slots

What the operations on the stack do to the value of each slot, and that they change
nothing but the stack.

* `Machine.slot_copySlots`, `Machine.slot_clearFrom`, … — the slots, one by one.
* `Machine.copySlots_eq`, `Machine.clearFrom_eq`, … — everything else.
* `Machine.valuesFrom_eq` — the values of slots as a list of arguments or results.
-/

namespace NpcDialog.Lua.Machine

open Bytes (ofText)

variable (m : Machine)

/-! ## One operation -/

theorem slot_of_size_le {i : Nat} (out : m.stack.size ≤ i) : m.slot i = .nil := by
  simp [slot, Array.getD, Nat.not_lt.2 out]

theorem slot_setSlot_ne {i j : Nat} (ne : i ≠ j) (x : Value) : (m.setSlot i x).slot j = m.slot j := by
  simp only [slot, setSlot, Array.getD_eq_getD_getElem?, Array.getElem?_setIfInBounds_ne ne]

@[simp] theorem size_setSlot (i : Nat) (x : Value) : (m.setSlot i x).stack.size = m.stack.size := by
  simp [setSlot]

/-- A slot that is cleared has no value, even if it is not there. -/
theorem slot_setSlot_nil (i j : Nat) :
    (m.setSlot i .nil).slot j = if i = j then .nil else m.slot j := by
  split
  · next same =>
    subst same
    by_cases there : i < m.stack.size
    · exact slot_setSlot m there .nil
    · exact slot_of_size_le _ (by simpa using there)
  · next ne => exact slot_setSlot_ne m ne _

theorem slot_withSlots (n i : Nat) : (m.withSlots n).slot i = m.slot i := by
  unfold withSlots
  split
  · rfl
  · next small =>
    by_cases there : i < m.stack.size
    · simp [slot, padded, small, Array.getD_eq_getD_getElem?, Array.getElem?_append_left there]
    · have le := Nat.not_lt.1 there
      rw [slot_of_size_le m le]
      simp only [slot, padded, small, if_false, Array.getD_eq_getD_getElem?,
        Array.getElem?_append_right le, Array.getElem?_replicate]
      split <;> rfl

theorem size_withSlots (n : Nat) : n ≤ (m.withSlots n).stack.size := by
  unfold withSlots
  split
  · assumption
  · next small =>
    simp only [padded, small, if_false, Array.size_append, Array.size_replicate]
    omega

theorem size_le_withSlots (n : Nat) : m.stack.size ≤ (m.withSlots n).stack.size := by
  unfold withSlots
  split
  · exact Nat.le_refl _
  · next small =>
    simp only [padded, small, if_false, Array.size_append]
    omega

@[simp] theorem size_clearFrom (start n : Nat) :
    (m.clearFrom start n).stack.size = m.stack.size := by
  induction n generalizing m start with
  | zero => rfl
  | succ n ih => rw [clearFrom, ih, size_setSlot]

theorem slot_clearFrom (start n i : Nat) : (m.clearFrom start n).slot i =
    if start ≤ i ∧ i < start + n then .nil else m.slot i := by
  induction n generalizing m start with
  | zero =>
    rw [if_neg (by omega)]
    rfl
  | succ n ih =>
    rw [clearFrom, ih, slot_setSlot_nil]
    split
    · rw [if_pos (by omega)]
    · split
      · rw [if_pos (by omega)]
      · rw [if_neg (by omega)]

@[simp] theorem size_copySlots (source target n : Nat) :
    (m.copySlots source target n).stack.size = m.stack.size := by
  induction n generalizing m source target with
  | zero => rfl
  | succ n ih => rw [copySlots, ih, size_setSlot]

/-- What is copied to slots behind, which are all there. -/
theorem slot_copySlots {source target n : Nat} (behind : source + n ≤ target)
    (there : target + n ≤ m.stack.size) (i : Nat) : (m.copySlots source target n).slot i =
      if target ≤ i ∧ i < target + n then m.slot (source + (i - target)) else m.slot i := by
  induction n generalizing m source target with
  | zero =>
    rw [if_neg (by omega)]
    rfl
  | succ n ih =>
    rw [copySlots, ih _ (by omega) (by rw [size_setSlot]; omega)]
    split
    · next inside =>
      rw [if_pos (by omega), slot_setSlot_ne m (by omega)]
      congr 1
      omega
    · split
      · next last =>
        obtain rfl : i = target := by omega
        rw [slot_setSlot m (by omega), Nat.sub_self, Nat.add_zero]
      · rw [slot_setSlot_ne m (by omega)]

/-- Only the stack changes when slots are made, cleared and copied. -/
theorem withSlots_eq (n : Nat) : m.withSlots n = { m with stack := (m.withSlots n).stack } := by
  unfold withSlots
  split <;> rfl

theorem clearFrom_eq (start n : Nat) :
    m.clearFrom start n = { m with stack := (m.clearFrom start n).stack } := by
  induction n generalizing m start with
  | zero => rfl
  | succ n ih => exact ih (m.setSlot start .nil) (start + 1)

theorem copySlots_eq (source target n : Nat) :
    m.copySlots source target n = { m with stack := (m.copySlots source target n).stack } := by
  induction n generalizing m source target with
  | zero => rfl
  | succ n ih => exact ih (m.setSlot target (m.slot source)) (source + 1) (target + 1)

/-- What is copied to slots in front, which are all there: the first value is read
before it is lost. -/
theorem slot_copySlots_front {source target n : Nat} (front : target ≤ source)
    (there : target + n ≤ m.stack.size) (i : Nat) : (m.copySlots source target n).slot i =
      if target ≤ i ∧ i < target + n then m.slot (source + (i - target)) else m.slot i := by
  induction n generalizing m source target with
  | zero =>
    rw [if_neg (by omega)]
    rfl
  | succ n ih =>
    rw [copySlots, ih _ (by omega) (by rw [size_setSlot]; omega)]
    split
    · next inside =>
      rw [if_pos (by omega), slot_setSlot_ne m (by omega)]
      congr 1
      omega
    · split
      · next last =>
        obtain rfl : i = target := by omega
        rw [slot_setSlot m (by omega), Nat.sub_self, Nat.add_zero]
      · rw [slot_setSlot_ne m (by omega)]

/-- One value is put after the other. -/
theorem putFrom_cons (start : Nat) (x : Value) (rest : List Value) :
    m.putFrom start (x :: rest).toArray = (m.setSlot start x).putFrom (start + 1) rest.toArray := by
  simp [putFrom, setSlot]

theorem size_putFrom (start : Nat) (vs : Array Value) :
    (m.putFrom start vs).stack.size = m.stack.size := by
  obtain ⟨vs⟩ := vs
  induction vs generalizing m start with
  | nil => rfl
  | cons x rest ih => rw [putFrom_cons, ih, size_setSlot]

/-- Values that are put in slots, which are all there. -/
theorem slot_putFrom {start : Nat} {vs : Array Value} (there : start + vs.size ≤ m.stack.size)
    (i : Nat) : (m.putFrom start vs).slot i =
      if start ≤ i ∧ i < start + vs.size then vs.getD (i - start) .nil else m.slot i := by
  obtain ⟨vs⟩ := vs
  induction vs generalizing m start with
  | nil =>
    rw [if_neg (by simp)]
    rfl
  | cons x rest ih =>
    simp only [List.size_toArray, List.length_cons] at there ih ⊢
    rw [putFrom_cons, ih _ (by rw [size_setSlot]; omega)]
    split
    · next inside =>
      obtain ⟨k, behind⟩ : ∃ k, i - start = k + 1 := ⟨i - start - 1, by omega⟩
      rw [if_pos (by omega), behind, show i - (start + 1) = k by omega]
      simp [Array.getD]
    · split
      · next last =>
        obtain rfl : i = start := by omega
        rw [slot_setSlot m (by omega), Nat.sub_self]
        rfl
      · rw [slot_setSlot_ne m (by omega)]

theorem getD_valuesFrom (start n i : Nat) :
    (m.valuesFrom start n).getD i .nil = if i < n then m.slot (start + i) else .nil := by
  by_cases there : i < n
  · simp [valuesFrom, Array.getD, there]
  · simp [valuesFrom, Array.getD, there]

/-- The values of slots, one by one. -/
theorem valuesFrom_eq {start : Nat} {vs : Array Value}
    (same : ∀ i < vs.size, m.slot (start + i) = vs.getD i .nil) :
    m.valuesFrom start vs.size = vs := by
  refine Array.ext (by simp [valuesFrom]) fun i _ lt => ?_
  have at_ := same i lt
  simpa [valuesFrom, Array.getD, lt] using at_

end NpcDialog.Lua.Machine
