import NpcDialog.Proofs.Text.Decoding
import NpcDialog.Proofs.Text.Numerals
import Mathlib.Data.List.TakeWhile

/-!
# Reading numerals

The number that a text stands for is found by scans over its bytes.  Each scan stops
where the part of a numeral does that it reads, so what is read as a number are the
numerals, and runs of digits are read as the integers that they stand for.

* `Numeral.read?_isSome_iff` — the numerals are what is read as a number.
* `Numeral.integer?_decimal`, `Numeral.integer?_hexadecimal` — the integers that digits
  stand for.
* `Numeral.integer?_repr` — an integer is read from its decimal numeral.
-/

namespace NpcDialog.Lua.Numeral

open Bytes (isSpace isDigit isHex hexValue lower)

/-! ## Scans -/

section Scans

variable {b : Bytes} {i : Nat}

/-- The bytes from an index on. -/
def rest (b : Bytes) (i : Nat) : List UInt8 := b.data.toList.drop i

theorem length_rest (b : Bytes) (i : Nat) : (rest b i).length = b.size - i := by simp [rest]

theorem rest_past (past : b.size ≤ i) : rest b i = [] := List.drop_eq_nil_of_le (by simpa using past)

theorem rest_cons (inside : i < b.size) : rest b i = b.byteAt i :: rest b (i + 1) :=
  Bytes.drop_eq_cons inside

theorem rest_add (b : Bytes) (i j : Nat) : rest b (i + j) = (rest b i).drop j := List.drop_drop.symm

theorem byteAt_past (past : b.size ≤ i) : b.byteAt i = 0 := by
  rw [Bytes.byteAt, dif_neg (Nat.not_lt.2 past)]

theorem byteAt_add (b : Bytes) (i j : Nat) : b.byteAt (i + j) = ((rest b i)[j]?).getD 0 := by
  rw [Bytes.byteAt_eq, rest, List.getElem?_drop]

theorem byteAt_eq_head (b : Bytes) (i : Nat) : b.byteAt i = ((rest b i)[0]?).getD 0 := byteAt_add b i 0

/-- The bytes that a scan passes are the longest run of its class.  The induction is on the
bytes that it may pass. -/
theorem skipSpaceAux_eq {n : Nat} (enough : b.size ≤ i + n) :
    skipSpaceAux b n i = i + ((rest b i).takeWhile isSpace).length := by
  induction n generalizing i with
  | zero => rw [skipSpaceAux, rest_past (by omega), List.takeWhile_nil, List.length_nil, Nat.add_zero]
  | succ n ih =>
    rw [skipSpaceAux]
    by_cases inside : i < b.size
    · rw [rest_cons inside, List.takeWhile_cons]
      split
      · rw [ih (by omega), List.length_cons]
        omega
      · rfl
    · rw [byteAt_past (by omega), rest_past (by omega)]
      rfl

theorem skipSpace_eq (b : Bytes) (i : Nat) :
    skipSpace b i = i + ((rest b i).takeWhile isSpace).length :=
  skipSpaceAux_eq (by omega)

/-- The scan reaches the end just if nothing but white space is left. -/
theorem skipSpace_eq_size (inside : i ≤ b.size) : skipSpace b i = b.size ↔ Blank (rest b i) := by
  have length := length_rest b i
  have split := congrArg List.length (List.takeWhile_append_dropWhile (p := isSpace) (l := rest b i))
  rw [List.length_append] at split
  rw [skipSpace_eq, Blank, ← List.dropWhile_eq_nil_iff, ← List.length_eq_zero_iff]
  omega

theorem digits_eq {base n : Nat} {digit : UInt8 → Bool} (enough : b.size ≤ i + n) (value : Nat) :
    digits base digit b n i value = (valueFrom base ((rest b i).takeWhile digit) value,
      i + ((rest b i).takeWhile digit).length) := by
  induction n generalizing i value with
  | zero => rw [digits, rest_past (by omega)]; rfl
  | succ n ih =>
    rw [digits]
    by_cases inside : i < b.size
    · rw [rest_cons inside, List.takeWhile_cons]
      cases digit (b.byteAt i) with
      | true =>
        simp only [inside, decide_true, Bool.and_self, if_true]
        rw [ih (by omega), List.length_cons, Nat.add_assoc, Nat.add_comm 1]
        rfl
      | false => simp [valueFrom]
    · simp [inside, rest_past (Nat.not_lt.1 inside), valueFrom]

theorem decimalDigits_eq (b : Bytes) (i value : Nat) :
    decimalDigits b i value = (valueFrom 10 ((rest b i).takeWhile isDigit) value,
      i + ((rest b i).takeWhile isDigit).length) :=
  digits_eq (by omega) value

theorem hexDigits_eq (b : Bytes) (i value : Nat) :
    hexDigits b i value = (valueFrom 16 ((rest b i).takeWhile isHex) value,
      i + ((rest b i).takeWhile isHex).length) :=
  digits_eq (by omega) value

theorem sign_eq (b : Bytes) (i : Nat) :
    sign b i = ((signOf (rest b i)).negates, i + (signOf (rest b i)).bytes.length) := by
  rw [sign, byteAt_eq_head]
  match rest b i with
  | [] => rfl
  | c :: l =>
    simp only [List.getElem?_cons_zero, Option.getD_some, beq_iff_eq]
    split
    · next minus => rw [minus]; rfl
    split
    · next plus => rw [plus]; rfl
    · next minus plus =>
      have absent : signOf (c :: l) = .absent := by
        unfold signOf
        split
        · next same => cases same; exact absurd rfl minus
        · next same => cases same; exact absurd rfl plus
        · rfl
      rw [absent]
      rfl

theorem beginsHex_eq (b : Bytes) (i : Nat) : beginsHex b i = marksHex (rest b i) := by
  rw [beginsHex, byteAt_eq_head, byteAt_add]
  match rest b i with
  | [] => rfl
  | [c] => simp [marksHex]
  | c :: d :: l =>
    by_cases first : c = 48
    · subst first
      simp [marksHex]
    · have unmarked : marksHex (c :: d :: l) = false := by
        rw [← Bool.not_eq_true, marksHex_iff]
        rintro ⟨d, l, same, -⟩
        exact first (List.cons.inj same).1
      simp [first, unmarked]

theorem exponent_eq (b : Bytes) (i : Nat) {letter : UInt8} (other : letter ≠ 0) :
    (exponent b i letter).2 = i + (exponentOf letter (rest b i)).length := by
  rw [exponent, byteAt_eq_head, sign_eq]
  cases same : rest b i with
  | nil =>
    have unmarked : lower 0 ≠ letter := other.symm
    simp [exponentOf, unmarked]
  | cons c l =>
    simp only [List.getElem?_cons_zero, Option.getD_some, beq_iff_eq, decimalDigits_eq, rest_add, same,
      exponentOf, List.drop_succ_cons, List.drop_zero]
    by_cases marked : lower c = letter
    · cases (l.drop (signOf l).bytes.length).takeWhile isDigit with
      | nil => simp
      | cons d ds =>
        simp [marked]
        omega
    · simp [marked]

/-- Does a number without sign stand at an index, with nothing but white space behind it? -/
def readsUnsigned (b : Bytes) (run : Nat → Nat → Nat × Nat) (letter : UInt8) (start : Nat) : Bool :=
  let (whole, afterWhole) := run start 0
  let point := b.byteAt afterWhole == 46 && afterWhole < b.size
  let stop := if point then (run (afterWhole + 1) whole).2 else afterWhole
  let places := if point then stop - afterWhole - 1 else 0
  !(afterWhole == start && places == 0) && !(skipSpace b (exponent b stop letter).2 != b.size)

/-- Does a hexadecimal number with a digit behind its mark stand at an index? -/
def readsHex (b : Bytes) (i : Nat) : Bool :=
  beginsHex b i && (isHex (b.byteAt (i + 2)) || (b.byteAt (i + 2) == 46 && isHex (b.byteAt (i + 3))))

theorem isSome_of_checks {α : Type} (p q : Bool) (x : α) :
    (if p then none else if q then none else some x).isSome = (!p && !q) := by
  cases p <;> cases q <;> rfl

theorem float?_isSome (b : Bytes) : (float? b).isSome =
    let i := (sign b (skipSpace b 0)).2
    if readsHex b i then readsUnsigned b (hexDigits b) 112 (i + 2)
    else readsUnsigned b (decimalDigits b) 101 i := by
  rw [float?]
  rcases sign b (skipSpace b 0) with ⟨negative, i⟩
  cases hex : readsHex b i with
  | true =>
    have hex' := hex
    rw [readsHex] at hex'
    simp only [hex, hex', if_true, isSome_of_checks, readsUnsigned, apply_ite Prod.snd]
  | false =>
    have hex' := hex
    rw [readsHex] at hex'
    simp only [hex, hex', Bool.false_eq_true, if_false, isSome_of_checks, readsUnsigned, apply_ite Prod.snd]

/-- A run of a class has a byte of the class unless it is empty. -/
theorem any_takeWhile {p : UInt8 → Bool} (l : List UInt8) :
    (l.takeWhile p).any p = true ↔ (l.takeWhile p).length ≠ 0 := by
  cases l with
  | nil => simp
  | cons c l => by_cases first : p c = true <;> simp [first]

theorem readsHex_eq (b : Bytes) (i : Nat) :
    readsHex b i = (marksHex (rest b i) && (mantissaOf isHex ((rest b i).drop 2)).any isHex) := by
  have second : (rest b i)[2]? = ((rest b i).drop 2)[0]? := by rw [List.getElem?_drop]
  have third : (rest b i)[3]? = ((rest b i).drop 2)[1]? := by rw [List.getElem?_drop]
  rw [readsHex, beginsHex_eq, byteAt_add, byteAt_add, second, third]
  congr 1
  match (rest b i).drop 2 with
  | [] => rfl
  | c :: l =>
    cases digit : isHex c with
    | true =>
      have first : (c :: l).takeWhile isHex = c :: l.takeWhile isHex := by simp [digit]
      unfold mantissaOf
      split <;> simp [digit]
    | false =>
      by_cases isPoint : c = 46
      · subst isPoint
        cases l with
        | nil => rfl
        | cons d l => cases digit' : isHex d <;> simp [mantissaOf, digit, digit']
      · have unpointed : (c :: l).dropWhile isHex = c :: l := by simp [digit]
        unfold mantissaOf
        split
        · next fs same =>
          rw [unpointed] at same
          exact absurd (List.cons.inj same).1 isPoint
        · simp [digit, isPoint]

theorem rest_behind {digit : UInt8 → Bool} (b : Bytes) (i : Nat) :
    rest b (i + ((rest b i).takeWhile digit).length) = (rest b i).dropWhile digit := by
  rw [rest_add]
  exact List.append_cancel_left
    ((List.prefix_iff_eq_append.1 (List.takeWhile_prefix digit)).trans List.takeWhile_append_dropWhile.symm)

/-- What is left behind a mantissa decides whether a number is read. -/
theorem checks_iff {digit : UInt8 → Bool} {letter : UInt8} (other : letter ≠ 0) {start whole stop places : Nat}
    (inside : start ≤ b.size) (stopped : stop = start + (mantissaOf digit (rest b start)).length)
    (passed : whole = start ∧ places = 0 ↔ ¬(mantissaOf digit (rest b start)).any digit = true) :
    (!(whole == start && places == 0) && !(skipSpace b (exponent b stop letter).2 != b.size)) = true ↔
      let m := mantissaOf digit (rest b start)
      let behind := (rest b start).drop m.length
      m.any digit = true ∧ Blank (behind.drop (exponentOf letter behind).length) := by
  have within : stop + (exponentOf letter (rest b stop)).length ≤ b.size := by
    have first := congrArg List.length (append_drop_mantissaOf digit (rest b start))
    have second := congrArg List.length (append_drop_exponentOf letter (rest b stop))
    rw [List.length_append, length_rest] at first second
    omega
  have checks : (!(whole == start && places == 0) && !(skipSpace b (exponent b stop letter).2 != b.size)) = true ↔
      ¬(whole = start ∧ places = 0) ∧ skipSpace b (exponent b stop letter).2 = b.size := by
    simp only [Bool.and_eq_true, Bool.not_eq_true', Bool.and_eq_false_iff, beq_eq_false_iff_ne, bne_eq_false_iff_eq,
      not_and_or, ne_eq]
  rw [checks, passed, not_not, exponent_eq b stop other, skipSpace_eq_size within, rest_add, stopped, rest_add]

theorem readsUnsigned_iff {digit : UInt8 → Bool} {letter : UInt8} {run : Nat → Nat → Nat × Nat}
    (reads : ∀ i v, (run i v).2 = i + ((rest b i).takeWhile digit).length) (point : digit 46 = false)
    (other : letter ≠ 0) {start : Nat} (inside : start ≤ b.size) :
    readsUnsigned b run letter start = true ↔
      let m := mantissaOf digit (rest b start)
      let behind := (rest b start).drop m.length
      m.any digit = true ∧ Blank (behind.drop (exponentOf letter behind).length) := by
  rcases first : run start 0 with ⟨value, whole⟩
  have whole_eq : whole = start + ((rest b start).takeWhile digit).length := by rw [← reads start 0, first]
  have behind : rest b whole = (rest b start).dropWhile digit := by rw [whole_eq, rest_behind]
  have head := byteAt_eq_head b whole
  rw [behind] at head
  rw [readsUnsigned, first]
  dsimp only
  by_cases pointed : ∃ fs, (rest b start).dropWhile digit = 46 :: fs
  · obtain ⟨fs, same⟩ := pointed
    have read : mantissaOf digit (rest b start) =
        (rest b start).takeWhile digit ++ 46 :: fs.takeWhile digit := by
      rw [mantissaOf, same]
      rfl
    have here : (b.byteAt whole == 46 && decide (whole < b.size)) = true := by
      have within := length_rest b whole
      rw [behind, same, List.length_cons] at within
      simp [head, same]
      omega
    have stop : (run (whole + 1) value).2 = whole + 1 + (fs.takeWhile digit).length := by
      rw [reads, rest_add, behind, same, List.drop_succ_cons, List.drop_zero]
    rw [if_pos here, if_pos here, stop]
    refine checks_iff other inside ?_ ?_
    · rw [read, List.length_append, List.length_cons]
      omega
    · rw [read, List.any_append, List.any_cons, point, Bool.false_or, Bool.or_eq_true, any_takeWhile,
        any_takeWhile]
      omega
  · have read : mantissaOf digit (rest b start) = (rest b start).takeWhile digit := by
      unfold mantissaOf
      split
      · next fs same => exact absurd ⟨fs, same⟩ pointed
      · rfl
    have here : ¬(b.byteAt whole == 46 && decide (whole < b.size)) = true := by
      rw [Bool.and_eq_true, beq_iff_eq, decide_eq_true_eq]
      rintro ⟨is, within⟩
      rw [← behind, rest_cons within, is] at pointed
      exact pointed ⟨_, rfl⟩
    rw [if_neg here, if_neg here]
    refine checks_iff other inside (by rw [read, whole_eq]) ?_
    rw [read, any_takeWhile]
    omega

/-- The bytes behind white space and a sign, which `float?` and `integer?` read from. -/
theorem rest_unsigned (b : Bytes) : rest b (sign b (skipSpace b 0)).2 = unsignedPart b.data.toList := by
  have whole : rest b 0 = b.data.toList := rfl
  rw [sign_eq, rest_add, skipSpace_eq, rest_behind, whole]
  rfl

theorem unsigned_inside (b : Bytes) : (sign b (skipSpace b 0)).2 ≤ b.size := by
  rw [sign_eq, skipSpace_eq, rest_behind]
  have first := congrArg List.length (List.takeWhile_append_dropWhile (p := isSpace) (l := rest b 0))
  have second := congrArg List.length (bytes_signOf ((rest b 0).dropWhile isSpace))
  rw [List.length_append] at first second
  rw [length_rest] at first
  dsimp only
  omega

/-- The numerals are what a float is read from. -/
theorem float?_isSome_iff (b : Bytes) : (float? b).isSome = true ↔ IsNumeral b.data.toList := by
  have part := rest_unsigned b
  have inside := unsigned_inside b
  rw [isNumeral_iff, float?_isSome, ← part]
  generalize (sign b (skipSpace b 0)).2 = i at inside ⊢
  dsimp only
  rw [readsHex_eq]
  unfold unsignedOf
  dsimp only
  split
  · next both =>
    have within : i + 2 ≤ b.size := by
      obtain ⟨c, l, same, -⟩ := marksHex_iff.1 (Bool.and_eq_true_iff.1 both).1
      have length := length_rest b i
      rw [same, List.length_cons, List.length_cons] at length
      omega
    rw [readsUnsigned_iff (fun i v => by rw [hexDigits_eq]) (by decide) (by decide) within, rest_add]
    obtain ⟨c, l, same, -⟩ := marksHex_iff.1 (Bool.and_eq_true_iff.1 both).1
    have digits := (Bool.and_eq_true_iff.1 both).2
    rw [same, List.drop_succ_cons, List.drop_succ_cons, List.drop_zero] at digits ⊢
    simp [digits, List.drop_drop]
  · rw [readsUnsigned_iff (fun i v => by rw [decimalDigits_eq]) (by decide) (by decide) inside]
    dsimp only
    split
    · next digits =>
      have some_ : mantissaOf isDigit (rest b i) ≠ [] := by
        rintro none_
        simp [none_] at digits
      simp [digits, some_, List.drop_drop]
    · next none_ => simp [none_]

/-- The integer that a sign and hexadecimal digits stand for. -/
def wrapped (negative : Bool) (value : Nat) : Int64 :=
  if negative then -Int64.ofNat value else Int64.ofNat value

/-- The integer that a sign and decimal digits stand for, if there is one of 64 bits. -/
def fitting (negative : Bool) (value : Nat) : Option Int64 :=
  if negative then
    if value ≤ 0x8000000000000000 then some (Int64.ofInt (-(value : Int))) else none
  else if value < 0x8000000000000000 then some (Int64.ofNat value) else none

/-- The number that digits stand for, if there are some and nothing but white space behind them. -/
def runAt (b : Bytes) (run : Nat → Nat → Nat × Nat) (start : Nat) : Option Nat :=
  let (value, stop) := run start 0
  if stop == start || skipSpace b stop != b.size then none else some value

theorem integer?_eq (b : Bytes) : integer? b =
    let (negative, i) := sign b (skipSpace b 0)
    if beginsHex b i then (runAt b (hexDigits b) (i + 2)).map (wrapped negative)
    else (runAt b (decimalDigits b) i).bind (fitting negative) := by
  rw [integer?]
  rcases sign b (skipSpace b 0) with ⟨negative, i⟩
  cases hex : beginsHex b i with
  | true =>
    simp only [hex, if_true, runAt]
    split <;> rfl
  | false =>
    simp only [hex, Bool.false_eq_true, if_false, runAt]
    split <;> rfl

theorem runAt_eq_some_iff {digit : UInt8 → Bool} {base : Nat} {run : Nat → Nat → Nat × Nat}
    (reads : ∀ i v, run i v = (valueFrom base ((rest b i).takeWhile digit) v,
      i + ((rest b i).takeWhile digit).length)) (inside : i ≤ b.size) {value : Nat} :
    runAt b run i = some value ↔ (rest b i).takeWhile digit ≠ [] ∧ Blank ((rest b i).dropWhile digit) ∧
      valueOf base ((rest b i).takeWhile digit) = value := by
  have within : i + ((rest b i).takeWhile digit).length ≤ b.size := by
    have parted := congrArg List.length (List.takeWhile_append_dropWhile (p := digit) (l := rest b i))
    rw [List.length_append, length_rest] at parted
    omega
  have blank := skipSpace_eq_size within
  rw [rest_behind] at blank
  rw [← blank, ← List.length_pos_iff, runAt, reads]
  generalize (rest b i).takeWhile digit = ds
  by_cases all : skipSpace b (i + ds.length) = b.size
  · cases ds with
    | nil => simp
    | cons c ds => simp [valueOf]
  · simp [all]

/-- What is read as an integer is a numeral. -/
theorem isNumeral_of_integer? {n : Int64} (read : integer? b = some n) : IsNumeral b.data.toList := by
  have part := rest_unsigned b
  have inside := unsigned_inside b
  rw [integer?_eq] at read
  have placed : b.data.toList.takeWhile isSpace ++
      ((signOf (b.data.toList.dropWhile isSpace)).bytes ++ unsignedPart b.data.toList) = b.data.toList := by
    rw [unsignedPart, bytes_signOf, List.takeWhile_append_dropWhile]
  rw [← placed, ← part]
  rcases signed : sign b (skipSpace b 0) with ⟨negative, i⟩
  rw [signed] at part inside read
  have front : Blank (b.data.toList.takeWhile isSpace) := List.all_eq_true.1 List.all_takeWhile
  dsimp only at read inside part ⊢
  cases hex : beginsHex b i with
  | true =>
    rw [hex, if_pos rfl, Option.map_eq_some_iff] at read
    obtain ⟨value, run, -⟩ := read
    rw [beginsHex_eq] at hex
    obtain ⟨c, l, same, marked⟩ := marksHex_iff.1 hex
    have length := length_rest b i
    rw [same, List.length_cons, List.length_cons] at length
    obtain ⟨some_, blank, -⟩ := (runAt_eq_some_iff (hexDigits_eq b) (by omega)).1 run
    rw [rest_add, same, List.drop_succ_cons, List.drop_succ_cons, List.drop_zero] at some_ blank
    rw [same, ← List.takeWhile_append_dropWhile (p := isHex) (l := l)]
    have number : Unsigned (48 :: c :: (l.takeWhile isHex ++ [])) :=
      .hexadecimal marked (.whole some_ (List.all_eq_true.1 List.all_takeWhile)) .absent
    rw [List.append_nil] at number
    exact .parts _ front number blank
  | false =>
    rw [hex, if_neg Bool.false_ne_true, Option.bind_eq_some_iff] at read
    obtain ⟨value, run, -⟩ := read
    obtain ⟨some_, blank, -⟩ := (runAt_eq_some_iff (decimalDigits_eq b) inside).1 run
    rw [← List.takeWhile_append_dropWhile (p := isDigit) (l := rest b i)]
    have number : Unsigned ((rest b i).takeWhile isDigit ++ []) :=
      .decimal (.whole some_ (List.all_eq_true.1 List.all_takeWhile)) .absent
    rw [List.append_nil] at number
    exact .parts _ front number blank

/-- The numerals are what is read as a number. -/
theorem read?_isSome_iff (b : Bytes) : (read? b).isSome = true ↔ IsNumeral b.data.toList := by
  rw [read?]
  cases whole : integer? b with
  | some n => simpa using isNumeral_of_integer? whole
  | none => rw [← float?_isSome_iff, Option.isSome_map]

section Integers

variable {front ds behind : List UInt8} {s : Sign}

theorem stops_blank (behind_blank : Blank behind) : ∀ c ∈ behind.head?, isHex c = false :=
  fun c first => (other_of_isSpace (behind_blank c (List.mem_of_mem_head? first))).1

theorem sign_of_placed {u : List UInt8} (placed : b.data.toList = front ++ (s.bytes ++ (u ++ behind)))
    (front_blank : Blank front) (first : ∃ c rest, u = c :: rest ∧ (isHex c = true ∨ c = 46)) :
    (sign b (skipSpace b 0)).1 = s.negates ∧ rest b (sign b (skipSpace b 0)).2 = u ++ behind := by
  have whole : rest b 0 = b.data.toList := rfl
  have parts := unsignedPart_append s behind front_blank first
  rw [← placed] at parts
  refine ⟨?_, by rw [rest_unsigned, parts.2]⟩
  rw [sign_eq, skipSpace_eq, rest_behind, whole, parts.1]

/-- The integer that decimal digits are read as. -/
theorem integer?_decimal (placed : b.data.toList = front ++ (s.bytes ++ (ds ++ behind)))
    (front_blank : Blank front) (some_ : ds ≠ []) (digits : ∀ c ∈ ds, isDigit c = true)
    (behind_blank : Blank behind) (low : -0x8000000000000000 ≤ s.applyTo (valueOf 10 ds))
    (high : s.applyTo (valueOf 10 ds) < 0x8000000000000000) :
    integer? b = some (Int64.ofInt (s.applyTo (valueOf 10 ds))) := by
  have inside := unsigned_inside b
  obtain ⟨c, l, rfl⟩ := List.exists_cons_of_ne_nil some_
  obtain ⟨negates, here⟩ := sign_of_placed placed front_blank
    ⟨c, l, rfl, .inl (isHex_of_isDigit (digits c (by simp)))⟩
  have unmarked : marksHex (c :: l ++ behind) = false :=
    marksHex_decimal (e := []) (.whole some_ digits) .absent behind_blank
  have halts : ∀ d ∈ behind.head?, isDigit d = false := fun d first => by
    by_contra digit
    have hex := isHex_of_isDigit (eq_true_of_ne_false digit)
    simp [stops_blank behind_blank d first] at hex
  rw [integer?_eq]
  rcases signed : sign b (skipSpace b 0) with ⟨negative, i⟩
  rw [signed] at negates here inside
  dsimp only at negates here inside ⊢
  have run : runAt b (decimalDigits b) i = some (valueOf 10 (c :: l)) := by
    rw [runAt_eq_some_iff (decimalDigits_eq b) inside, here, takeWhile_run digits halts,
      dropWhile_run digits halts]
    exact ⟨some_, behind_blank, rfl⟩
  rw [beginsHex_eq, here, unmarked, if_neg Bool.false_ne_true, run, Option.bind_some, negates, fitting]
  rw [Sign.applyTo] at low high ⊢
  split
  · next negative =>
    rw [if_pos negative] at low high
    rw [if_pos (by omega)]
  · next positive =>
    rw [if_neg positive] at low high
    rw [if_pos (by omega)]
    rfl

/-- The integer that hexadecimal digits are read as. -/
theorem integer?_hexadecimal {c : UInt8} (marked : c = 120 ∨ c = 88)
    (placed : b.data.toList = front ++ (s.bytes ++ (48 :: c :: ds ++ behind)))
    (front_blank : Blank front) (some_ : ds ≠ []) (digits : ∀ c ∈ ds, isHex c = true)
    (behind_blank : Blank behind) :
    integer? b = some (Int64.ofInt (s.applyTo (valueOf 16 ds))) := by
  obtain ⟨negates, here⟩ := sign_of_placed placed front_blank ⟨48, _, rfl, .inl (by decide)⟩
  have marks : marksHex (48 :: c :: ds ++ behind) = true := marksHex_iff.2 ⟨c, _, rfl, marked⟩
  have halts := stops_blank behind_blank
  rw [integer?_eq]
  rcases signed : sign b (skipSpace b 0) with ⟨negative, i⟩
  rw [signed] at negates here
  dsimp only at negates here ⊢
  have length := length_rest b i
  rw [here, List.cons_append, List.cons_append, List.length_cons, List.length_cons] at length
  have run : runAt b (hexDigits b) (i + 2) = some (valueOf 16 ds) := by
    rw [runAt_eq_some_iff (hexDigits_eq b) (by omega), rest_add, here, List.cons_append, List.cons_append,
      List.drop_succ_cons, List.drop_succ_cons, List.drop_zero, takeWhile_run digits halts,
      dropWhile_run digits halts]
    exact ⟨some_, behind_blank, rfl⟩
  rw [beginsHex_eq, here, marks, if_pos rfl, run, Option.map_some, negates, wrapped, Sign.applyTo]
  split
  · rw [Int64.ofInt_neg]
    rfl
  · rfl

/-- A mark without digits behind it is no numeral. -/
theorem read?_marked {c : UInt8} (marked : c = 120 ∨ c = 88)
    (placed : b.data.toList = front ++ (s.bytes ++ ([48, c] ++ behind)))
    (front_blank : Blank front) (behind_blank : Blank behind) : read? b = none := by
  have part := (unsignedPart_append s behind front_blank ⟨48, [c], rfl, .inl (by decide)⟩).2
  have digitless : (mantissaOf isHex behind).any isHex = false := by
    cases behind with
    | nil => rfl
    | cons d l =>
      have other := other_of_isSpace (behind_blank d (by simp))
      unfold mantissaOf
      split
      · next fs same =>
        rw [List.dropWhile_cons_of_neg (by simp [other.1])] at same
        exact absurd (List.cons.inj same).1 other.2.2.2.1
      · simp [other.1]
  have decimal : mantissaOf isDigit ([48, c] ++ behind) = [48] := by rcases marked with rfl | rfl <;> rfl
  have unmarked : lower c ≠ 101 := by rcases marked with rfl | rfl <;> decide
  have zero : unsignedOf ([48, c] ++ behind) = [48] := by
    have hex : ([48, c] ++ behind).drop 2 = behind := rfl
    have tail : ([48, c] ++ behind).drop [(48 : UInt8)].length = c :: behind := rfl
    rw [unsignedOf, hex, digitless, Bool.and_false, if_neg Bool.false_ne_true, decimal]
    dsimp only
    rw [if_pos (by decide), tail, exponentOf, if_neg fun both => unmarked both.1, List.append_nil]
  rw [← Option.not_isSome_iff_eq_none, read?_isSome_iff, placed, isNumeral_iff, part, zero]
  rintro ⟨-, blank⟩
  have mark : isSpace c = true := blank c (by simp)
  rcases marked with rfl | rfl <;> exact absurd mark (by decide)

end Integers

end Scans

/-! ## The decimal numerals of integers -/

/-- The digits of the decimal numeral of a natural number. -/
def decimal (n : Nat) : List UInt8 := (Nat.toDigits 10 n).map fun c => UInt8.ofNat c.toNat

/-- The sign of an integer. -/
def signOfInt (n : Int) : Sign := if n < 0 then .minus else .absent

theorem applyTo_signOfInt (n : Int) : (signOfInt n).applyTo n.natAbs = n := by
  unfold signOfInt
  split
  · next negative =>
    show -(n.natAbs : Int) = n
    omega
  · next positive =>
    show (n.natAbs : Int) = n
    omega

theorem toNat_of_isDigit {c : Char} (digit : c.isDigit = true) : 48 ≤ c.toNat ∧ c.toNat ≤ 57 := by
  simp only [Char.isDigit, Bool.and_eq_true, decide_eq_true_eq, ge_iff_le, UInt32.le_iff_toNat_le] at digit
  exact digit

/-- A digit is one byte of UTF-8. -/
theorem utf8EncodeChar_digit {c : Char} (digit : c.isDigit = true) :
    String.utf8EncodeChar c = [UInt8.ofNat c.toNat] := by
  obtain ⟨low, high⟩ := toNat_of_isDigit digit
  have value : c.val.toNat = c.toNat := rfl
  simp only [String.utf8EncodeChar, value]
  rw [if_pos (by omega)]

theorem isDigit_ofNat {n : Nat} (low : 48 ≤ n) (high : n ≤ 57) :
    isDigit (UInt8.ofNat n) = true ∧ hexValue (UInt8.ofNat n) = n - 48 := by
  have value : (UInt8.ofNat n).toNat = n := by rw [UInt8.toNat_ofNat', Nat.mod_eq_of_lt (by omega)]
  have digit : isDigit (UInt8.ofNat n) = true := by
    simp [isDigit, UInt8.le_iff_toNat_le, value, low, high]
  exact ⟨digit, by rw [hexValue, if_pos digit, value]⟩

theorem isDigit_of_mem_toDigits {n : Nat} {c : Char} (among : c ∈ Nat.toDigits 10 n) : c.isDigit = true :=
  Nat.isDigit_of_mem_toDigits (by decide) (by decide) among

theorem decimal_digits (n : Nat) : ∀ c ∈ decimal n, isDigit c = true := by
  simp only [decimal, List.mem_map]
  rintro _ ⟨c, among, rfl⟩
  obtain ⟨low, high⟩ := toNat_of_isDigit (isDigit_of_mem_toDigits among)
  exact (isDigit_ofNat low high).1

theorem decimal_ne_nil (n : Nat) : decimal n ≠ [] := by
  simp [decimal]

/-- The value of digits is the number they were made from. -/
theorem valueOf_decimal (n : Nat) : valueOf 10 (decimal n) = n := by
  have same (l : List Char) (digits : ∀ c ∈ l, c.isDigit = true) (value : Nat) :
      valueFrom 10 (l.map fun c => UInt8.ofNat c.toNat) value = Nat.ofDigitChars 10 l value := by
    rw [Nat.ofDigitChars_eq_foldl]
    induction l generalizing value with
    | nil => rfl
    | cons c l ih =>
      obtain ⟨low, high⟩ := toNat_of_isDigit (digits c (by simp))
      rw [List.map_cons, valueFrom, List.foldl_cons, List.foldl_cons, (isDigit_ofNat low high).2, Nat.mul_comm]
      exact ih (fun d among => digits d (by simp [among])) _
  rw [valueOf, decimal, same _ fun c => isDigit_of_mem_toDigits]
  exact Nat.ofDigitChars_ten_toDigits

theorem data_ofText (s : String) :
    (Bytes.ofText s).data.toList = s.toList.flatMap String.utf8EncodeChar := by
  rw [← Bytes.spells_ofText s, List.drop_zero]

theorem data_repr_nat (n : Nat) : (Bytes.ofText n.repr).data.toList = decimal n := by
  rw [data_ofText, Nat.repr_eq_ofList_toDigits, String.toList_ofList, decimal, List.map_eq_flatMap]
  rw [List.flatMap_def, List.flatMap_def,
    List.map_congr_left fun c among => utf8EncodeChar_digit (isDigit_of_mem_toDigits among)]

/-- The bytes of the decimal numeral of an integer. -/
theorem data_repr (n : Int) :
    (Bytes.ofText n.repr).data.toList = (signOfInt n).bytes ++ decimal n.natAbs := by
  rw [Int.repr_eq_if, signOfInt]
  split
  · next positive =>
    have abs : n.toNat = n.natAbs := by omega
    rw [if_neg (by omega), abs, data_repr_nat]
    rfl
  · next negative =>
    have abs : (-n).toNat = n.natAbs := by omega
    rw [if_pos (by omega), abs, data_ofText, String.toList_append, List.flatMap_append, ← data_ofText,
      ← data_ofText, data_repr_nat]
    rfl

/-- The text of an integer is its decimal numeral. -/
theorem ofInt_eq (n : Int) : Bytes.ofInt n = Bytes.ofText n.repr := by
  rw [ByteArray.ext_iff, ← Array.toList_inj, data_repr, Bytes.ofInt, signOfInt]
  split
  · rw [ByteArray.data_append, Array.toList_append, Bytes.ofNat, data_repr_nat]
    rfl
  · rw [Bytes.ofNat, data_repr_nat]
    rfl

/-- An integer is read from its decimal numeral. -/
theorem integer?_repr (n : Int64) : integer? (Bytes.ofText n.toInt.repr) = some n := by
  have placed : (Bytes.ofText n.toInt.repr).data.toList =
      [] ++ ((signOfInt n.toInt).bytes ++ (decimal n.toInt.natAbs ++ [])) := by
    rw [data_repr, List.nil_append, List.append_nil]
  have none_ : Blank [] := fun c among => absurd among (by simp)
  have value : (signOfInt n.toInt).applyTo (valueOf 10 (decimal n.toInt.natAbs)) = n.toInt := by
    rw [valueOf_decimal, applyTo_signOfInt]
  have read := integer?_decimal placed none_ (decimal_ne_nil _) (decimal_digits _) none_
    (by rw [value]; exact n.le_toInt) (by rw [value]; exact n.toInt_lt)
  rw [read, value, Int64.ofInt_toInt]

end NpcDialog.Lua.Numeral
