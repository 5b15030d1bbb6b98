import NpcDialog.Bytes
import Mathlib.Tactic.Common

/-!
# Bytes and the texts they spell

Decoding takes the characters out of a byte string one by one.  Where the
encoding of a character stands, that character is decoded; and what is decoded
is there, unless it is a replacement.  So the text of the UTF-8 form of a text
is that text, and the byte strings that count as text are the well-formed ones.

* `Bytes.decodeAt_of_drop` — a character is decoded from its encoding.
* `Bytes.drop_of_decodeAt` — what is decoded is there.
* `Bytes.toText_ofText` — a text is decoded from its UTF-8 form.
* `Bytes.isText_iff` — the byte strings that count as text.
-/

namespace NpcDialog.Bytes

variable {b : Bytes} {i : Nat} {behind : List UInt8}

/-! ## What stands at an index -/

theorem byteAt_eq (b : Bytes) (i : Nat) : b.byteAt i = (b.data.toList[i]?).getD 0 := by
  unfold byteAt
  split
  · next inside => simp [ByteArray.getElem_eq_getElem_data, inside]
  · next outside =>
    have absent : b.data[i]? = none := Array.getElem?_eq_none (Nat.not_lt.1 outside)
    simp [absent]

theorem drop_eq_cons (inside : i < b.size) :
    b.data.toList.drop i = b.byteAt i :: b.data.toList.drop (i + 1) := by
  have there : i < b.data.toList.length := by simpa using inside
  rw [byteAt_eq, List.getElem?_eq_getElem there, Option.getD_some, List.drop_eq_getElem_cons there]

/-- The induction is on the bytes that are left to compare. -/
theorem matchesFrom_of_drop {part : Bytes}
    (there : b.data.toList.drop i = part.data.toList ++ behind) (n j : Nat)
    (within : j + n ≤ part.size) : Bytes.matchesFrom b part n (i + j) j = true := by
  induction n generalizing j with
  | zero => rfl
  | succ n ih =>
    have inside : j < part.data.toList.length := by
      rw [Array.length_toList, ByteArray.size_data]
      omega
    have same : b.byteAt (i + j) = part.byteAt j := by
      rw [byteAt_eq, byteAt_eq, ← List.getElem?_drop, there, List.getElem?_append_left inside]
    rw [Bytes.matchesFrom, same, beq_self_eq_true, Bool.true_and]
    exact ih (j + 1) (by omega)

theorem size_of_drop {part : Bytes} (there : b.data.toList.drop i = part.data.toList ++ behind)
    (some_ : 0 < part.size) : i + part.size ≤ b.size := by
  have lengths := congrArg List.length there
  simp only [List.length_drop, List.length_append, Array.length_toList, ByteArray.size_data] at lengths
  omega

theorem holdsAt_of_drop {part : Bytes} (there : b.data.toList.drop i = part.data.toList ++ behind)
    (some_ : 0 < part.size) : b.holdsAt part i = true := by
  have matched : Bytes.matchesFrom b part part.size i 0 = true :=
    matchesFrom_of_drop there part.size 0 (by omega)
  simp [Bytes.holdsAt, size_of_drop there some_, matched]

/-- The induction is on the bytes that were compared. -/
theorem drop_of_matchesFrom {part : Bytes} {n j : Nat} (matched : b.matchesFrom part n i j = true)
    (within : i + n ≤ b.size) (all : j + n = part.size) :
    b.data.toList.drop i = part.data.toList.drop j ++ b.data.toList.drop (i + n) := by
  induction n generalizing i j with
  | zero =>
    have whole : part.data.toList.length ≤ j := by
      rw [Array.length_toList, ByteArray.size_data]
      omega
    rw [List.drop_eq_nil_of_le whole, List.nil_append, Nat.add_zero]
  | succ n ih =>
    obtain ⟨same, later⟩ : b.byteAt i = part.byteAt j ∧ b.matchesFrom part n (i + 1) (j + 1) = true := by
      simpa [matchesFrom] using matched
    rw [drop_eq_cons (by omega), drop_eq_cons (b := part) (by omega), same, List.cons_append,
      ih later (by omega) (by omega), Nat.add_assoc, Nat.add_comm 1 n]

theorem drop_of_holdsAt {part : Bytes} (held : b.holdsAt part i = true) :
    b.data.toList.drop i = part.data.toList ++ b.data.toList.drop (i + part.size) := by
  obtain ⟨within, matched⟩ : i + part.size ≤ b.size ∧ b.matchesFrom part part.size i 0 = true := by
    simpa [holdsAt] using held
  simpa using drop_of_matchesFrom matched within (Nat.zero_add _)

/-! ## Bytes as numbers -/

/-- The number that a byte is. -/
def numberAt (b : Bytes) (i : Nat) : Nat := (b.byteAt i).toNat

/-- Is there a byte between two numbers? -/
def Between (b : Bytes) (i lo hi : Nat) : Prop := i < b.size ∧ lo ≤ b.numberAt i ∧ b.numberAt i ≤ hi

instance (b : Bytes) (i lo hi : Nat) : Decidable (b.Between i lo hi) := instDecidableAnd

theorem continues_iff {lo hi : UInt8} : continues b i lo hi = true ↔ b.Between i lo.toNat hi.toNat := by
  simp only [continues, Bool.and_eq_true, decide_eq_true_eq, UInt8.le_iff_toNat_le, numberAt, and_assoc, Between]

/-- What stands for an ill-formed piece. -/
abbrev replacement : Char := Char.ofNat 0xFFFD

/-- Decoding in terms of numbers. -/
theorem decodeAt_eq (b : Bytes) (i : Nat) : decodeAt b i =
    let x := b.numberAt i
    if x < 0x80 then (Char.ofNat x, 1)
    else if x < 0xC2 then (replacement, 1)
    else if x < 0xE0 then
      if b.Between (i + 1) 0x80 0xBF then (Char.ofNat ((x - 0xC0) * 64 + b.numberAt (i + 1) % 64), 2)
      else (replacement, 1)
    else if x < 0xF0 then
      if b.Between (i + 1) (if x = 0xE0 then 0xA0 else 0x80) (if x = 0xED then 0x9F else 0xBF) then
        if b.Between (i + 2) 0x80 0xBF then
          (Char.ofNat ((x - 0xE0) * 4096 + b.numberAt (i + 1) % 64 * 64 + b.numberAt (i + 2) % 64), 3)
        else (replacement, 2)
      else (replacement, 1)
    else if x < 0xF5 then
      if b.Between (i + 1) (if x = 0xF0 then 0x90 else 0x80) (if x = 0xF4 then 0x8F else 0xBF) then
        if b.Between (i + 2) 0x80 0xBF then
          if b.Between (i + 3) 0x80 0xBF then
            (Char.ofNat ((x - 0xF0) * 262144 + b.numberAt (i + 1) % 64 * 4096
              + b.numberAt (i + 2) % 64 * 64 + b.numberAt (i + 3) % 64), 4)
          else (replacement, 3)
        else (replacement, 2)
      else (replacement, 1)
    else (replacement, 1) := by
  simp only [decodeAt, continues_iff, UInt8.lt_iff_toNat_lt, apply_ite UInt8.toNat, beq_iff_eq,
    ← UInt8.toNat_inj, sixBits, Between, numberAt]
  rfl

theorem numberAt_of_drop {front : List UInt8} (there : b.data.toList.drop i = front ++ behind) {k : Nat}
    (inside : k < front.length) : i + k < b.size ∧ b.numberAt (i + k) = front[k].toNat := by
  have lengths := congrArg List.length there
  simp only [List.length_drop, List.length_append, Array.length_toList, ByteArray.size_data] at lengths
  refine ⟨by omega, ?_⟩
  rw [numberAt, byteAt_eq, ← List.getElem?_drop, there, List.getElem?_append_left inside,
    List.getElem?_eq_getElem inside, Option.getD_some]

/-! ## One character -/

/-- A character is decoded from its encoding. -/
theorem decodeAt_of_drop {c : Char}
    (there : b.data.toList.drop i = String.utf8EncodeChar c ++ behind) :
    decodeAt b i = (c, c.utf8Size) := by
  have range : c.toNat < 0xD800 ∨ 0xDFFF < c.toNat ∧ c.toNat < 0x110000 := by
    simpa [UInt32.isValidChar, Nat.isValidChar] using c.valid
  have value : c.val.toNat = c.toNat := rfl
  have back {n : Nat} (same : n = c.toNat) : Char.ofNat n = c := by rw [same, Char.ofNat_toNat]
  rw [← String.length_utf8EncodeChar]
  generalize encoded : String.utf8EncodeChar c = front at there ⊢
  unfold String.utf8EncodeChar at encoded
  simp only [value] at encoded
  rw [decodeAt_eq]
  split at encoded
  · next small =>
    subst encoded
    obtain ⟨in₀, x₀⟩ := numberAt_of_drop (k := 0) there (by simp)
    simp at x₀
    simp only
    rw [if_pos (by omega), back (by omega)]
    rfl
  split at encoded
  · next great small =>
    subst encoded
    obtain ⟨in₀, x₀⟩ := numberAt_of_drop (k := 0) there (by simp)
    obtain ⟨in₁, x₁⟩ := numberAt_of_drop (k := 1) there (by simp)
    simp at x₀ x₁
    have second : b.Between (i + 1) 0x80 0xBF := ⟨in₁, by omega, by omega⟩
    simp only
    rw [if_neg (by omega), if_neg (by omega), if_pos (by omega), if_pos second, back (by omega)]
    rfl
  split at encoded
  · next great small =>
    subst encoded
    obtain ⟨in₀, x₀⟩ := numberAt_of_drop (k := 0) there (by simp)
    obtain ⟨in₁, x₁⟩ := numberAt_of_drop (k := 1) there (by simp)
    obtain ⟨in₂, x₂⟩ := numberAt_of_drop (k := 2) there (by simp)
    simp at x₀ x₁ x₂
    have second : b.Between (i + 1) (if b.numberAt i = 0xE0 then 0xA0 else 0x80)
        (if b.numberAt i = 0xED then 0x9F else 0xBF) :=
      ⟨in₁, by split <;> omega, by split <;> omega⟩
    have third : b.Between (i + 2) 0x80 0xBF := ⟨in₂, by omega, by omega⟩
    simp only
    rw [if_neg (by omega), if_neg (by omega), if_neg (by omega), if_pos (by omega),
      if_pos second, if_pos third, back (by omega)]
    rfl
  · next great =>
    subst encoded
    obtain ⟨in₀, x₀⟩ := numberAt_of_drop (k := 0) there (by simp)
    obtain ⟨in₁, x₁⟩ := numberAt_of_drop (k := 1) there (by simp)
    obtain ⟨in₂, x₂⟩ := numberAt_of_drop (k := 2) there (by simp)
    obtain ⟨in₃, x₃⟩ := numberAt_of_drop (k := 3) there (by simp)
    simp at x₀ x₁ x₂ x₃
    have second : b.Between (i + 1) (if b.numberAt i = 0xF0 then 0x90 else 0x80)
        (if b.numberAt i = 0xF4 then 0x8F else 0xBF) :=
      ⟨in₁, by split <;> omega, by split <;> omega⟩
    have third : b.Between (i + 2) 0x80 0xBF := ⟨in₂, by omega, by omega⟩
    have fourth : b.Between (i + 3) 0x80 0xBF := ⟨in₃, by omega, by omega⟩
    simp only
    rw [if_neg (by omega), if_neg (by omega), if_neg (by omega), if_neg (by omega), if_pos (by omega),
      if_pos second, if_pos third, if_pos fourth, back (by omega)]
    rfl

theorem ofNat_eq_byteAt {n : Nat} (same : n = b.numberAt i) : UInt8.ofNat n = b.byteAt i := by
  rw [same, numberAt, UInt8.ofNat_toNat]

theorem toNat_ofNat_val {n : Nat} (valid : n < 0xD800 ∨ 0xDFFF < n ∧ n < 0x110000) :
    (Char.ofNat n).val.toNat = n := by
  have valid : n.isValidChar := valid
  rw [Char.ofNat, dif_pos valid]
  rfl

theorem encoded_one (first : b.numberAt i < 0x80) :
    String.utf8EncodeChar (Char.ofNat (b.numberAt i)) = [b.byteAt i] := by
  simp only [String.utf8EncodeChar, toNat_ofNat_val (Or.inl (by omega : b.numberAt i < 0xD800))]
  rw [if_pos (by omega), ofNat_eq_byteAt rfl]

theorem encoded_two (low : 0xC2 ≤ b.numberAt i) (high : b.numberAt i < 0xE0)
    (second : b.Between (i + 1) 0x80 0xBF) :
    String.utf8EncodeChar (Char.ofNat ((b.numberAt i - 0xC0) * 64 + b.numberAt (i + 1) % 64)) =
      [b.byteAt i, b.byteAt (i + 1)] := by
  obtain ⟨-, low₁, high₁⟩ := second
  generalize value : (b.numberAt i - 0xC0) * 64 + b.numberAt (i + 1) % 64 = n
  simp only [String.utf8EncodeChar, toNat_ofNat_val (Or.inl (by omega : n < 0xD800))]
  rw [if_neg (by omega), if_pos (by omega), ofNat_eq_byteAt (b := b) (i := i) (by omega),
    ofNat_eq_byteAt (b := b) (i := i + 1) (by omega)]

theorem encoded_three (low : 0xE0 ≤ b.numberAt i) (high : b.numberAt i < 0xF0)
    (second : b.Between (i + 1) (if b.numberAt i = 0xE0 then 0xA0 else 0x80)
      (if b.numberAt i = 0xED then 0x9F else 0xBF))
    (third : b.Between (i + 2) 0x80 0xBF) :
    String.utf8EncodeChar (Char.ofNat
      ((b.numberAt i - 0xE0) * 4096 + b.numberAt (i + 1) % 64 * 64 + b.numberAt (i + 2) % 64)) =
      [b.byteAt i, b.byteAt (i + 1), b.byteAt (i + 2)] := by
  obtain ⟨-, low₁, high₁⟩ := second
  obtain ⟨-, low₂, high₂⟩ := third
  have wide : 0x80 ≤ b.numberAt (i + 1) ∧ b.numberAt (i + 1) ≤ 0xBF ∧
      (b.numberAt i = 0xE0 → 0xA0 ≤ b.numberAt (i + 1)) ∧
      (b.numberAt i = 0xED → b.numberAt (i + 1) ≤ 0x9F) := by
    split at low₁ <;> split at high₁ <;> omega
  generalize value : (b.numberAt i - 0xE0) * 4096 + b.numberAt (i + 1) % 64 * 64
    + b.numberAt (i + 2) % 64 = n
  have valid : n < 0xD800 ∨ 0xDFFF < n ∧ n < 0x110000 := by omega
  simp only [String.utf8EncodeChar, toNat_ofNat_val valid]
  rw [if_neg (by omega), if_neg (by omega), if_pos (by omega), ofNat_eq_byteAt (b := b) (i := i) (by omega),
    ofNat_eq_byteAt (b := b) (i := i + 1) (by omega), ofNat_eq_byteAt (b := b) (i := i + 2) (by omega)]

theorem encoded_four (low : 0xF0 ≤ b.numberAt i) (high : b.numberAt i < 0xF5)
    (second : b.Between (i + 1) (if b.numberAt i = 0xF0 then 0x90 else 0x80)
      (if b.numberAt i = 0xF4 then 0x8F else 0xBF))
    (third : b.Between (i + 2) 0x80 0xBF) (fourth : b.Between (i + 3) 0x80 0xBF) :
    String.utf8EncodeChar (Char.ofNat ((b.numberAt i - 0xF0) * 262144 + b.numberAt (i + 1) % 64 * 4096
      + b.numberAt (i + 2) % 64 * 64 + b.numberAt (i + 3) % 64)) =
      [b.byteAt i, b.byteAt (i + 1), b.byteAt (i + 2), b.byteAt (i + 3)] := by
  obtain ⟨-, low₁, high₁⟩ := second
  obtain ⟨-, low₂, high₂⟩ := third
  obtain ⟨-, low₃, high₃⟩ := fourth
  have wide : 0x80 ≤ b.numberAt (i + 1) ∧ b.numberAt (i + 1) ≤ 0xBF ∧
      (b.numberAt i = 0xF0 → 0x90 ≤ b.numberAt (i + 1)) ∧
      (b.numberAt i = 0xF4 → b.numberAt (i + 1) ≤ 0x8F) := by
    split at low₁ <;> split at high₁ <;> omega
  generalize value : (b.numberAt i - 0xF0) * 262144 + b.numberAt (i + 1) % 64 * 4096
    + b.numberAt (i + 2) % 64 * 64 + b.numberAt (i + 3) % 64 = n
  have valid : n < 0xD800 ∨ 0xDFFF < n ∧ n < 0x110000 := by omega
  simp only [String.utf8EncodeChar, toNat_ofNat_val valid]
  rw [if_neg (by omega), if_neg (by omega), if_neg (by omega), ofNat_eq_byteAt (b := b) (i := i) (by omega),
    ofNat_eq_byteAt (b := b) (i := i + 1) (by omega), ofNat_eq_byteAt (b := b) (i := i + 2) (by omega),
    ofNat_eq_byteAt (b := b) (i := i + 3) (by omega)]

/-- What is decoded is there, unless it is a replacement. -/
theorem drop_of_decodeAt (inside : i < b.size) (good : (decodeAt b i).1 ≠ replacement) :
    b.data.toList.drop i =
      String.utf8EncodeChar (decodeAt b i).1 ++ b.data.toList.drop (i + (decodeAt b i).2) := by
  rw [decodeAt_eq] at good ⊢
  simp only at good ⊢
  by_cases below : b.numberAt i < 0x80
  · rw [if_pos below, encoded_one below, drop_eq_cons inside]
    rfl
  rw [if_neg below] at good ⊢
  by_cases stray : b.numberAt i < 0xC2
  · rw [if_pos stray] at good
    exact absurd rfl good
  rw [if_neg stray] at good ⊢
  by_cases two : b.numberAt i < 0xE0
  · rw [if_pos two] at good ⊢
    split at good
    · next second =>
      rw [if_pos second, encoded_two (Nat.not_lt.1 stray) two second, drop_eq_cons inside,
        drop_eq_cons second.1]
      rfl
    · exact absurd rfl good
  rw [if_neg two] at good ⊢
  by_cases three : b.numberAt i < 0xF0
  · rw [if_pos three] at good ⊢
    by_cases second : b.Between (i + 1) (if b.numberAt i = 0xE0 then 0xA0 else 0x80)
        (if b.numberAt i = 0xED then 0x9F else 0xBF)
    · rw [if_pos second] at good ⊢
      split at good
      · next third =>
        rw [if_pos third, encoded_three (Nat.not_lt.1 two) three second third, drop_eq_cons inside,
          drop_eq_cons second.1, drop_eq_cons third.1]
        rfl
      · exact absurd rfl good
    · rw [if_neg second] at good
      exact absurd rfl good
  rw [if_neg three] at good ⊢
  by_cases four : b.numberAt i < 0xF5
  · rw [if_pos four] at good ⊢
    by_cases second : b.Between (i + 1) (if b.numberAt i = 0xF0 then 0x90 else 0x80)
        (if b.numberAt i = 0xF4 then 0x8F else 0xBF)
    · rw [if_pos second] at good ⊢
      by_cases third : b.Between (i + 2) 0x80 0xBF
      · rw [if_pos third] at good ⊢
        split at good
        · next fourth =>
          rw [if_pos fourth, encoded_four (Nat.not_lt.1 three) four second third fourth,
            drop_eq_cons inside, drop_eq_cons second.1, drop_eq_cons third.1, drop_eq_cons fourth.1]
          rfl
        · exact absurd rfl good
      · rw [if_neg third] at good
        exact absurd rfl good
    · rw [if_neg second] at good
      exact absurd rfl good
  · rw [if_neg four] at good
    exact absurd rfl good

/-! ## Whole texts -/

/-- Are the bytes from an index on the encodings of some characters? -/
def Spells (b : Bytes) (i : Nat) (l : List Char) : Prop :=
  b.data.toList.drop i = l.flatMap String.utf8EncodeChar

theorem spells_nil : b.Spells i [] ↔ b.size ≤ i := by
  simp [Spells]

theorem Spells.inside {c : Char} {l : List Char} (there : b.Spells i (c :: l)) : i < b.size := by
  have lengths := congrArg List.length there
  simp only [List.length_drop, Array.length_toList, ByteArray.size_data, List.flatMap_cons,
    List.length_append, String.length_utf8EncodeChar] at lengths
  have some_ := c.utf8Size_pos
  omega

theorem Spells.tail {c : Char} {l : List Char} (there : b.Spells i (c :: l)) :
    b.Spells (i + c.utf8Size) l := by
  rw [Spells, List.flatMap_cons] at there
  rw [Spells, ← List.drop_drop, there, ← String.length_utf8EncodeChar, List.drop_left]

theorem Spells.decoded {c : Char} {l : List Char} (there : b.Spells i (c :: l)) :
    decodeAt b i = (c, c.utf8Size) := by
  rw [Spells, List.flatMap_cons] at there
  exact decodeAt_of_drop there

theorem spells_iff {l : List Char} : b.Spells 0 l ↔ b = l.utf8Encode := by
  rw [Spells, List.drop_zero, ByteArray.ext_iff, ← Array.toList_inj, List.utf8Encode,
    List.data_toByteArray]

/-- The UTF-8 form of a text spells its characters. -/
theorem spells_ofText (s : String) : (ofText s).Spells 0 s.toList := by
  refine spells_iff.2 ?_
  conv_lhs => rw [← String.ofList_toList (s := s)]
  exact String.toByteArray_ofList

theorem isValidUTF8_ofText (s : String) : (ofText s).IsValidUTF8 :=
  ⟨s.toList, spells_iff.1 (spells_ofText s)⟩

/-- The induction is on the characters. -/
theorem Spells.toText {l : List Char} {n : Nat} (there : b.Spells i l) (enough : b.size ≤ i + n)
    (acc : String) : toTextAux b n i acc = acc ++ String.ofList l := by
  induction l generalizing i n acc with
  | nil =>
    have past := spells_nil.1 there
    cases n with
    | zero => simp [toTextAux]
    | succ n => simp [toTextAux, Nat.not_lt.2 past]
  | cons c l ih =>
    have inside := there.inside
    have some_ := c.utf8Size_pos
    obtain ⟨n, rfl⟩ : ∃ k, n = k + 1 := ⟨n - 1, by omega⟩
    rw [toTextAux, if_pos inside, there.decoded]
    simp only
    rw [ih there.tail (by omega)]
    simp [← String.toList_inj]

/-- A text is decoded from its UTF-8 form. -/
@[simp] theorem toText_ofText (s : String) : (ofText s).toText = s := by
  rw [Bytes.toText, (spells_ofText s).toText (by omega), String.ofList_toList, String.empty_append]

theorem exists_char (inside : i < b.size)
    (sound : (decodeAt b i).1 = replacement → b.holdsAt (ofList [0xEF, 0xBF, 0xBD]) i = true) :
    ∃ c, b.data.toList.drop i = String.utf8EncodeChar c ++ b.data.toList.drop (i + c.utf8Size) := by
  by_cases bad : (decodeAt b i).1 = replacement
  · exact ⟨replacement, drop_of_holdsAt (sound bad)⟩
  · have there := drop_of_decodeAt inside bad
    have width : (decodeAt b i).2 = (decodeAt b i).1.utf8Size :=
      congrArg Prod.snd (decodeAt_of_drop there)
    rw [width] at there
    exact ⟨(decodeAt b i).1, there⟩

/-- The induction is on the characters that may come. -/
theorem isTextAux_iff {n : Nat} (enough : b.size ≤ i + n) :
    isTextAux b n i = true ↔ ∃ l, b.Spells i l := by
  induction n generalizing i with
  | zero => exact ⟨fun _ => ⟨[], spells_nil.2 enough⟩, fun _ => rfl⟩
  | succ n ih =>
    by_cases inside : i < b.size
    · rw [isTextAux, if_pos inside]
      constructor
      · intro checked
        simp only at checked
        split at checked
        · cases checked
        · next sound =>
          obtain ⟨c, there⟩ := exists_char inside (by simpa using sound)
          rw [decodeAt_of_drop there] at checked
          have some_ := c.utf8Size_pos
          obtain ⟨l, behind⟩ := (ih (by omega)).1 checked
          exact ⟨c :: l, by rw [Spells, there, behind, List.flatMap_cons]⟩
      · rintro ⟨l, there⟩
        obtain _ | ⟨c, l⟩ := l
        · exact absurd (spells_nil.1 there) (Nat.not_le.2 inside)
        have some_ := c.utf8Size_pos
        have held : c = replacement → b.holdsAt (ofList [0xEF, 0xBF, 0xBD]) i = true := by
          rintro rfl
          exact holdsAt_of_drop (there.trans List.flatMap_cons) (by decide)
        rw [there.decoded]
        simp only
        rw [if_neg (by simpa using held), ih (by omega)]
        exact ⟨l, there.tail⟩
    · rw [isTextAux, if_neg inside]
      exact ⟨fun _ => ⟨[], spells_nil.2 (Nat.not_lt.1 inside)⟩, fun _ => rfl⟩

/-- The byte strings that count as text are the well-formed ones. -/
theorem isText_iff : b.isText = true ↔ b.IsValidUTF8 := by
  rw [isText, isTextAux_iff (by omega)]
  constructor
  · rintro ⟨l, there⟩
    exact ⟨l, spells_iff.1 there⟩
  · rintro ⟨l, encoded⟩
    exact ⟨l, spells_iff.2 encoded⟩

end NpcDialog.Bytes
