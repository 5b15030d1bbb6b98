import NpcDialog.Command.Play
import NpcDialog.Proofs.Text.Decoding

/-!
# The lines of an input

An input is cut behind each line feed, and what stands behind the last one is a
line too unless it is empty.  Cutting loses nothing, and behind a line feed it
begins anew: more input behind such an input only adds lines.

* `cutLines` — the lines among bytes, by their structure.
* `inputLines_eq` — the lines of an input are those of its bytes.
* `inputLines_append` — the lines of an input with more behind it.
-/

namespace NpcDialog.Command

/-- The lines among bytes, each with its line feed. -/
def cutLines : List UInt8 → List (List UInt8)
  | [] => []
  | c :: rest =>
    if c = 10 then [c] :: cutLines rest
    else
      match cutLines rest with
      | [] => [[c]]
      | line :: lines => (c :: line) :: lines

/-- Cutting loses nothing. -/
theorem flatten_cutLines (l : List UInt8) : (cutLines l).flatten = l := by
  induction l with
  | nil => rfl
  | cons c rest ih =>
    rw [cutLines]
    split
    · rw [List.flatten_cons, ih, List.singleton_append]
    · split
      · next none_ => simpa [none_] using ih
      · next line lines some_ => simpa [some_] using ih

theorem cutLines_ne_nil (c : UInt8) (l : List UInt8) : cutLines (c :: l) ≠ [] := fun none_ => by
  have lost := flatten_cutLines (c :: l)
  rw [none_] at lost
  cases lost

/-- Bytes without a line feed are a line. -/
theorem cutLines_of_not_mem {c : UInt8} {l : List UInt8} (free : 10 ∉ c :: l) :
    cutLines (c :: l) = [c :: l] := by
  induction l generalizing c with
  | nil => simp [cutLines, (List.ne_of_not_mem_cons free).symm]
  | cons d l ih =>
    rw [cutLines, if_neg (List.ne_of_not_mem_cons free).symm, ih (List.not_mem_of_not_mem_cons free)]

/-- Bytes are cut behind their first line feed. -/
theorem cutLines_append_feed {front : List UInt8} (free : 10 ∉ front) (rest : List UInt8) :
    cutLines (front ++ 10 :: rest) = (front ++ [10]) :: cutLines rest := by
  induction front with
  | nil => rw [List.nil_append, cutLines, if_pos rfl, List.nil_append]
  | cons c front ih =>
    rw [List.cons_append, cutLines, if_neg (List.ne_of_not_mem_cons free).symm,
      ih (List.not_mem_of_not_mem_cons free)]
    rfl

/-- Behind a line feed the cutting begins anew.  The induction is on the bytes
before it. -/
theorem cutLines_append {l : List UInt8} (ended : l = [] ∨ l.getLast? = some 10) (more : List UInt8) :
    cutLines (l ++ more) = cutLines l ++ cutLines more := by
  induction l with
  | nil => rfl
  | cons c l ih =>
    rw [List.cons_append, cutLines, cutLines]
    rcases l with _ | ⟨d, l⟩
    · have feed : c = 10 := by simpa using ended
      rw [if_pos feed, if_pos feed]
      rfl
    · have ended : d :: l = [] ∨ (d :: l).getLast? = some 10 :=
        .inr (by simpa [List.getLast?_cons_cons] using ended)
      rw [ih ended]
      obtain ⟨line, lines, first⟩ := List.exists_cons_of_ne_nil (cutLines_ne_nil d l)
      rw [first]
      split <;> rfl

/-! ## The search for line feeds -/

variable {b : Bytes} {i : Nat}

/-- Where a byte is found, and that it is the first.  The induction is on the
bytes that are looked at. -/
theorem drop_of_indexAux {c : UInt8} {n j : Nat} (whole : i + n = b.size)
    (found : b.indexAux c n i = some j) : ∃ front, c ∉ front ∧ j = i + front.length ∧
      b.data.toList.drop i = front ++ c :: b.data.toList.drop (j + 1) := by
  induction n generalizing i with
  | zero => cases found
  | succ n ih =>
    have here := Bytes.drop_eq_cons (show i < b.size by omega)
    rw [Bytes.indexAux] at found
    split at found
    · next same =>
      cases found
      rw [eq_of_beq same] at here
      exact ⟨[], List.not_mem_nil, rfl, here⟩
    · next other =>
      obtain ⟨front, free, there, rest⟩ := ih (by omega) found
      refine ⟨b.byteAt i :: front, ?_, by rw [there, List.length_cons]; omega, ?_⟩
      · rw [List.mem_cons, not_or]
        exact ⟨fun same => other (beq_iff_eq.2 same.symm), free⟩
      · rw [here, rest, List.cons_append]

theorem not_mem_drop_of_indexAux {c : UInt8} {n : Nat} (whole : i + n = b.size)
    (absent : b.indexAux c n i = none) : c ∉ b.data.toList.drop i := by
  induction n generalizing i with
  | zero =>
    have past : b.data.toList.length ≤ i := by
      rw [Array.length_toList, ByteArray.size_data]
      omega
    simp [List.drop_eq_nil_of_le past]
  | succ n ih =>
    rw [Bytes.indexAux] at absent
    split at absent
    · cases absent
    · next other =>
      rw [Bytes.drop_eq_cons (by omega), List.mem_cons, not_or]
      exact ⟨fun same => other (beq_iff_eq.2 same.symm), ih (by omega) absent⟩

theorem slice_eq_ofList {j : Nat} {front behind : List UInt8}
    (there : b.data.toList.drop i = front ++ behind) (width : i + front.length = j) :
    b.slice i j = Bytes.ofList front := by
  refine ByteArray.ext (Array.toList_inj.1 ?_)
  rw [Bytes.slice, ByteArray.data_extract, Array.toList_extract, List.extract_eq_take_drop, there,
    ← width, Nat.add_sub_cancel_left, List.take_left]
  rfl

/-- The induction is on the lines that may come. -/
theorem inputLinesFrom_eq {n : Nat} (enough : b.size < i + n) :
    inputLinesFrom b n i = (cutLines (b.data.toList.drop i)).map Bytes.ofList := by
  induction n generalizing i with
  | zero =>
    have past : b.data.toList.length ≤ i := by
      rw [Array.length_toList, ByteArray.size_data]
      omega
    rw [inputLinesFrom, List.drop_eq_nil_of_le past]
    rfl
  | succ n ih =>
    rw [inputLinesFrom]
    split
    · next past =>
      rw [← ByteArray.size_data, ← Array.length_toList] at past
      rw [List.drop_eq_nil_of_le past]
      rfl
    · next inside =>
      have whole : i + (b.size - i) = b.size := by omega
      split
      · next j found =>
        obtain ⟨front, free, there, rest⟩ := drop_of_indexAux whole found
        have line : b.slice i (j + 1) = Bytes.ofList (front ++ [10]) :=
          slice_eq_ofList (by rw [rest, List.append_assoc]; rfl)
            (by rw [there, List.length_append, List.length_singleton, Nat.add_assoc])
        rw [rest, cutLines_append_feed free, line, ih (by omega)]
        rfl
      · next absent =>
        have free := not_mem_drop_of_indexAux whole absent
        have line : b.slice i b.size = Bytes.ofList (b.data.toList.drop i) :=
          slice_eq_ofList (List.append_nil _).symm
            (by rw [List.length_drop, Array.length_toList, ByteArray.size_data]; omega)
        rw [line]
        rw [Bytes.drop_eq_cons (by omega)] at free ⊢
        rw [cutLines_of_not_mem free]
        rfl

/-- The lines of an input are those of its bytes. -/
theorem inputLines_eq (b : Bytes) : inputLines b = (cutLines b.data.toList).map Bytes.ofList := by
  rw [inputLines, inputLinesFrom_eq (by omega), List.drop_zero]

/-- More input behind a line feed only adds lines. -/
theorem inputLines_append {b : Bytes} (ended : b.data.toList = [] ∨ b.data.toList.getLast? = some 10)
    (more : Bytes) : inputLines (b ++ more) = inputLines b ++ inputLines more := by
  rw [inputLines_eq, inputLines_eq, inputLines_eq, ← List.map_append, ← cutLines_append ended]
  simp

end NpcDialog.Command
