import NpcDialog.Lua.Numeral
import Mathlib.Tactic.Common

/-!
# The form of numerals

Which byte strings are numerals, by their structure.  A numeral is read from the
left, each part up to what cannot be part of it, and so in one way only.

* `Numeral.IsNumeral` — the numerals.
* `Numeral.unsignedOf` — the number without sign that bytes begin with.
* `Numeral.isNumeral_iff` — the numerals are what is read so up to white space.
-/

namespace NpcDialog.Lua.Numeral

open Bytes (isSpace isDigit isHex hexValue lower)

/-! ## Numerals by their structure -/

/-- What may stand in front of a number. -/
inductive Sign where
  /-- Nothing. -/
  | absent
  /-- A plus sign. -/
  | plus
  /-- A minus sign. -/
  | minus

/-- The sign as it is written. -/
def Sign.bytes : Sign → List UInt8
  | .absent => []
  | .plus => [43]
  | .minus => [45]

/-- Does the sign make a number negative? -/
def Sign.negates : Sign → Bool
  | .minus => true
  | _ => false

/-- The number with the sign. -/
def Sign.applyTo (s : Sign) (n : Nat) : Int := if s.negates then -(n : Int) else n

/-- Is there nothing but white space? -/
def Blank (l : List UInt8) : Prop := ∀ c ∈ l, isSpace c = true

/-- The number that digits stand for in a base, continuing another number. -/
def valueFrom (base : Nat) (ds : List UInt8) (value : Nat) : Nat :=
  ds.foldl (fun n c => n * base + hexValue c) value

/-- The number that digits stand for in a base. -/
def valueOf (base : Nat) (ds : List UInt8) : Nat := valueFrom base ds 0

/-- Digits, at least one, with a point before, among or behind them or none. -/
inductive Mantissa (digit : UInt8 → Bool) : List UInt8 → Prop where
  /-- There is no point. -/
  | whole {ds : List UInt8} (some_ : ds ≠ []) (digits : ∀ c ∈ ds, digit c = true) : Mantissa digit ds
  /-- There is a point. -/
  | pointed {ds fs : List UInt8} (some_ : ds ++ fs ≠ []) (digits : ∀ c ∈ ds, digit c = true)
      (fraction : ∀ c ∈ fs, digit c = true) : Mantissa digit (ds ++ 46 :: fs)

/-- A letter with decimal digits behind it, at least one, and perhaps a sign in between;
or nothing. -/
inductive Exponent (letter : UInt8) : List UInt8 → Prop where
  /-- There is none. -/
  | absent : Exponent letter []
  /-- There is one, its letter in either case. -/
  | written {c : UInt8} {ds : List UInt8} (s : Sign) (marked : lower c = letter) (some_ : ds ≠ [])
      (digits : ∀ c ∈ ds, isDigit c = true) : Exponent letter (c :: (s.bytes ++ ds))

/-- A number without sign, decimal or hexadecimal. -/
inductive Unsigned : List UInt8 → Prop where
  /-- In decimal digits. -/
  | decimal {m e : List UInt8} (mantissa : Mantissa isDigit m) (exponent : Exponent 101 e) :
      Unsigned (m ++ e)
  /-- In hexadecimal digits. -/
  | hexadecimal {c : UInt8} {m e : List UInt8} (marked : c = 120 ∨ c = 88)
      (mantissa : Mantissa isHex m) (exponent : Exponent 112 e) : Unsigned (48 :: c :: (m ++ e))

/-- A number, perhaps with a sign, and white space around it. -/
inductive IsNumeral : List UInt8 → Prop where
  /-- Its parts in their order. -/
  | parts {front u behind : List UInt8} (s : Sign) (front_blank : Blank front) (number : Unsigned u)
      (behind_blank : Blank behind) : IsNumeral (front ++ (s.bytes ++ (u ++ behind)))

/-! ## Bytes of several classes -/

theorem isHex_of_isDigit {c : UInt8} (digit : isDigit c = true) : isHex c = true := by
  simp [isHex, digit]

theorem isSpace_of_isHex {c : UInt8} (digit : isHex c = true) : isSpace c = false := by
  simp only [isHex, isDigit, Bool.or_eq_true, Bool.and_eq_true, decide_eq_true_eq,
    UInt8.le_iff_toNat_le] at digit
  simp only [isSpace, Bool.or_eq_false_iff, beq_eq_false_iff_ne, ne_eq, ← UInt8.toNat_inj,
    Bool.and_eq_false_iff, decide_eq_false_iff_not, UInt8.le_iff_toNat_le]
  simp at *
  omega

/-- A hexadecimal digit is neither a sign nor a point nor a mark. -/
theorem ne_of_isHex {c : UInt8} (digit : isHex c = true) :
    c ≠ 43 ∧ c ≠ 45 ∧ c ≠ 46 ∧ c ≠ 120 ∧ c ≠ 88 := by
  refine ⟨?_, ?_, ?_, ?_, ?_⟩ <;> rintro rfl <;> revert digit <;> decide

/-- The white space there is. -/
theorem isSpace_iff {c : UInt8} :
    isSpace c = true ↔ c = 32 ∨ c = 9 ∨ c = 10 ∨ c = 11 ∨ c = 12 ∨ c = 13 := by
  simp only [isSpace, Bool.or_eq_true, beq_iff_eq, Bool.and_eq_true, decide_eq_true_eq,
    UInt8.le_iff_toNat_le, ← UInt8.toNat_inj]
  simp
  omega

/-- White space is no part of a number. -/
theorem other_of_isSpace {c : UInt8} (space : isSpace c = true) :
    isHex c = false ∧ c ≠ 43 ∧ c ≠ 45 ∧ c ≠ 46 ∧ c ≠ 48 ∧ c ≠ 120 ∧ c ≠ 88 := by
  rcases isSpace_iff.1 space with rfl | rfl | rfl | rfl | rfl | rfl <;> decide

/-- The letter of a decimal exponent. -/
theorem eq_of_lower_101 {c : UInt8} (marked : lower c = 101) : c = 101 ∨ c = 69 := by
  unfold lower at marked
  split at marked
  · right
    have back := congrArg (· - 32) marked
    simpa using back
  · exact .inl marked

/-- The letter of a hexadecimal exponent. -/
theorem eq_of_lower_112 {c : UInt8} (marked : lower c = 112) : c = 112 ∨ c = 80 := by
  unfold lower at marked
  split at marked
  · right
    have back := congrArg (· - 32) marked
    simpa using back
  · exact .inl marked

/-! ## Parts of a numeral, read from the left -/

/-- The sign that bytes begin with. -/
def signOf : List UInt8 → Sign
  | 45 :: _ => .minus
  | 43 :: _ => .plus
  | _ => .absent

/-- Do the bytes begin with the mark of a hexadecimal number? -/
def marksHex : List UInt8 → Bool
  | 48 :: c :: _ => c == 120 || c == 88
  | _ => false

/-- The digits of a class that bytes begin with, and a point before, among or behind them. -/
def mantissaOf (digit : UInt8 → Bool) (l : List UInt8) : List UInt8 :=
  match l.dropWhile digit with
  | 46 :: rest => l.takeWhile digit ++ 46 :: rest.takeWhile digit
  | _ => l.takeWhile digit

/-- The exponent that bytes begin with. -/
def exponentOf (letter : UInt8) : List UInt8 → List UInt8
  | [] => []
  | c :: l =>
    let s := signOf l
    let ds := (l.drop s.bytes.length).takeWhile isDigit
    if lower c = letter ∧ ds ≠ [] then c :: (s.bytes ++ ds) else []

/-- The number without sign that bytes begin with, or nothing. -/
def unsignedOf (l : List UInt8) : List UInt8 :=
  let m := mantissaOf isHex (l.drop 2)
  if marksHex l && m.any isHex then l.take 2 ++ (m ++ exponentOf 112 ((l.drop 2).drop m.length))
  else
    let m := mantissaOf isDigit l
    if m.any isDigit then m ++ exponentOf 101 (l.drop m.length) else []

section Parts

variable {l behind m e u : List UInt8} {digit : UInt8 → Bool} {letter : UInt8}

/-- A run of bytes of a class, up to one that is of another. -/
theorem takeWhile_run {p : UInt8 → Bool} {front : List UInt8}
    (passed : ∀ c ∈ front, p c = true) (stops : ∀ c ∈ behind.head?, p c = false) :
    (front ++ behind).takeWhile p = front := by
  rw [List.takeWhile_append_of_pos passed]
  cases behind with
  | nil => simp
  | cons c behind => simp [stops c rfl]

theorem dropWhile_run {p : UInt8 → Bool} {front : List UInt8}
    (passed : ∀ c ∈ front, p c = true) (stops : ∀ c ∈ behind.head?, p c = false) :
    (front ++ behind).dropWhile p = behind := by
  rw [List.dropWhile_append_of_pos passed]
  cases behind with
  | nil => simp
  | cons c behind => simp [stops c rfl]

theorem signOf_append (s : Sign) (other : ∀ c ∈ l.head?, c ≠ 43 ∧ c ≠ 45) :
    signOf (s.bytes ++ l) = s := by
  cases s with
  | absent =>
    rw [Sign.bytes, List.nil_append, signOf]
    · rintro rest rfl
      exact (other 45 rfl).2 rfl
    · rintro rest rfl
      exact (other 43 rfl).1 rfl
  | plus => rfl
  | minus => rfl

theorem bytes_signOf (l : List UInt8) : (signOf l).bytes ++ l.drop (signOf l).bytes.length = l := by
  unfold signOf
  split <;> rfl

theorem marksHex_iff : marksHex l = true ↔ ∃ c rest, l = 48 :: c :: rest ∧ (c = 120 ∨ c = 88) := by
  unfold marksHex
  split
  · next c rest => simp
  · next other =>
    simp only [Bool.false_eq_true, false_iff]
    rintro ⟨c, rest, rfl, -⟩
    exact other c rest rfl

/-- A mantissa is read up to what is no part of it. -/
theorem mantissaOf_append (mantissa : Mantissa digit m) (point : digit 46 = false)
    (stops : ∀ c ∈ l.head?, digit c = false ∧ c ≠ 46) : mantissaOf digit (m ++ l) = m := by
  have halts : ∀ c ∈ l.head?, digit c = false := fun c first => (stops c first).1
  cases mantissa with
  | whole some_ digits =>
    rw [mantissaOf, takeWhile_run digits halts, dropWhile_run digits halts]
    split
    · next rest => exact absurd rfl (stops 46 rfl).2
    · rfl
  | @pointed ds fs some_ digits fraction =>
    have halts' : ∀ c ∈ (46 :: (fs ++ l)).head?, digit c = false := by simpa using point
    rw [List.append_assoc, List.cons_append, mantissaOf, takeWhile_run digits halts',
      dropWhile_run digits halts']
    simp only [takeWhile_run fraction halts]

/-- What is read as a mantissa is one, if there is a digit. -/
theorem mantissa_mantissaOf (some_ : (mantissaOf digit l).any digit = true) (point : digit 46 = false) :
    Mantissa digit (mantissaOf digit l) := by
  have all (l : List UInt8) : ∀ c ∈ l.takeWhile digit, digit c = true := List.all_eq_true.1 List.all_takeWhile
  unfold mantissaOf at some_ ⊢
  split
  · next rest same =>
    rw [same] at some_
    refine .pointed ?_ (all _) (all _)
    rintro none_
    obtain ⟨before, after⟩ := List.append_eq_nil_iff.1 none_
    simp [before, after, point] at some_
  · next other =>
    refine .whole ?_ (all _)
    intro none_
    split at some_
    · next rest same => exact other rest same
    · simp [none_] at some_

theorem Mantissa.any (mantissa : Mantissa digit m) : m.any digit = true := by
  cases mantissa with
  | whole some_ digits =>
    obtain ⟨c, rest, rfl⟩ := List.exists_cons_of_ne_nil some_
    simp [digits c (by simp)]
  | @pointed ds fs some_ digits fraction =>
    obtain ⟨c, rest, same⟩ := List.exists_cons_of_ne_nil some_
    have among : c ∈ ds ++ fs := by simp [same]
    rw [List.mem_append] at among
    rw [List.any_eq_true]
    rcases among with within | within
    · exact ⟨c, by simp [within], digits c within⟩
    · exact ⟨c, by simp [within], fraction c within⟩

theorem append_drop_mantissaOf (digit : UInt8 → Bool) (l : List UInt8) :
    mantissaOf digit l ++ l.drop (mantissaOf digit l).length = l := by
  suffices mantissaOf digit l <+: l from List.prefix_iff_eq_append.1 this
  unfold mantissaOf
  split
  · next rest same =>
    have parted := List.takeWhile_append_dropWhile (p := digit) (l := l)
    rw [same] at parted
    refine ⟨rest.dropWhile digit, ?_⟩
    rw [List.append_assoc, List.cons_append, List.takeWhile_append_dropWhile, parted]
  · exact List.takeWhile_prefix digit

theorem exponentOf_append (exponent : Exponent letter e)
    (stops : ∀ c ∈ l.head?, isDigit c = false ∧ lower c ≠ letter) : exponentOf letter (e ++ l) = e := by
  cases exponent with
  | absent =>
    cases l with
    | nil => rfl
    | cons c l => rw [List.nil_append, exponentOf, if_neg fun both => (stops c rfl).2 both.1]
  | @written c ds s marked some_ digits =>
    have unsigned : ∀ c ∈ (ds ++ l).head?, c ≠ 43 ∧ c ≠ 45 := by
      obtain ⟨d, rest, rfl⟩ := List.exists_cons_of_ne_nil some_
      have other := ne_of_isHex (isHex_of_isDigit (digits d (by simp)))
      simpa using ⟨other.1, other.2.1⟩
    have run : (ds ++ l).takeWhile isDigit = ds := takeWhile_run digits fun c first => (stops c first).1
    simp only [List.cons_append, List.append_assoc, exponentOf, signOf_append s unsigned, List.drop_left, run]
    rw [if_pos ⟨marked, some_⟩]

theorem exponent_exponentOf (letter : UInt8) (l : List UInt8) : Exponent letter (exponentOf letter l) := by
  cases l with
  | nil => exact .absent
  | cons c l =>
    rw [exponentOf]
    split
    · next both => exact .written _ both.1 both.2 (List.all_eq_true.1 List.all_takeWhile)
    · exact .absent

theorem append_drop_exponentOf (letter : UInt8) (l : List UInt8) :
    exponentOf letter l ++ l.drop (exponentOf letter l).length = l := by
  suffices exponentOf letter l <+: l from List.prefix_iff_eq_append.1 this
  cases l with
  | nil => exact List.nil_prefix
  | cons c l =>
    rw [exponentOf]
    split
    · have within : (signOf l).bytes ++ (l.drop (signOf l).bytes.length).takeWhile isDigit <+:
          (signOf l).bytes ++ l.drop (signOf l).bytes.length :=
        (List.prefix_append_right_inj _).2 (List.takeWhile_prefix _)
      rw [bytes_signOf] at within
      exact List.cons_prefix_cons.2 ⟨rfl, within⟩
    · exact List.nil_prefix

/-- What follows a mantissa: an exponent or white space. -/
theorem head_exponent (exponent : Exponent letter e) (blank : Blank behind) :
    ∀ c ∈ (e ++ behind).head?, lower c = letter ∨ isSpace c = true := by
  intro c first
  cases exponent with
  | absent => exact .inr (blank c (List.mem_of_mem_head? first))
  | written s marked some_ digits =>
    obtain rfl : _ = c := by simpa using first
    exact .inl marked

theorem stops_mantissa (exponent : Exponent 101 e) (blank : Blank behind) :
    ∀ c ∈ (e ++ behind).head?, isDigit c = false ∧ c ≠ 46 ∧ c ≠ 120 ∧ c ≠ 88 := by
  intro c first
  rcases head_exponent exponent blank c first with marked | space
  · rcases eq_of_lower_101 marked with rfl | rfl <;> decide
  · have other := other_of_isSpace space
    refine ⟨?_, other.2.2.2.1, other.2.2.2.2.2⟩
    by_contra digit
    simp [isHex_of_isDigit (eq_true_of_ne_false digit)] at other

theorem stops_hex_mantissa (exponent : Exponent 112 e) (blank : Blank behind) :
    ∀ c ∈ (e ++ behind).head?, isHex c = false ∧ c ≠ 46 := by
  intro c first
  rcases head_exponent exponent blank c first with marked | space
  · rcases eq_of_lower_112 marked with rfl | rfl <;> decide
  · exact ⟨(other_of_isSpace space).1, (other_of_isSpace space).2.2.2.1⟩

theorem stops_exponent (blank : Blank behind) :
    ∀ c ∈ behind.head?, isDigit c = false ∧ lower c ≠ 101 ∧ lower c ≠ 112 := by
  intro c first
  rcases isSpace_iff.1 (blank c (List.mem_of_mem_head? first)) with
    rfl | rfl | rfl | rfl | rfl | rfl <;> decide

/-- A decimal number has no mark behind its first digit. -/
theorem marksHex_decimal (mantissa : Mantissa isDigit m) (exponent : Exponent 101 e)
    (blank : Blank behind) : marksHex (m ++ (e ++ behind)) = false := by
  have stops := stops_mantissa exponent blank
  have within : ∀ c ∈ m, c ≠ 120 ∧ c ≠ 88 := by
    have digitOr : ∀ c ∈ m, isDigit c = true ∨ c = 46 := by
      cases mantissa with
      | whole some_ digits => exact fun c among => .inl (digits c among)
      | pointed some_ digits fraction =>
        intro c among
        rcases List.mem_append.1 among with before | after
        · exact .inl (digits c before)
        · rcases List.mem_cons.1 after with point | after
          · exact .inr point
          · exact .inl (fraction c after)
    intro c among
    rcases digitOr c among with digit | rfl
    · exact (ne_of_isHex (isHex_of_isDigit digit)).2.2.2
    · decide
  have some_ := List.any_eq_true.1 mantissa.any
  rw [← Bool.not_eq_true, marksHex_iff]
  rintro ⟨c, rest, same, mark⟩
  have second : c ∈ m ∨ c ∈ (e ++ behind).head? := by
    match m, same with
    | [], _ => simp at some_
    | [_], same => exact .inr (by simp at same; simp [same])
    | _ :: _ :: _, same => exact .inl (by simp at same; simp [same])
  have other : c ≠ 120 ∧ c ≠ 88 := second.elim (within c) fun first => (stops c first).2.2
  exact mark.elim other.1 other.2

/-- A number is read up to the white space behind it. -/
theorem unsignedOf_append (number : Unsigned u) (blank : Blank behind) : unsignedOf (u ++ behind) = u := by
  cases number with
  | @decimal m e mantissa exponent =>
    have stops := stops_mantissa exponent blank
    have read : mantissaOf isDigit (m ++ (e ++ behind)) = m :=
      mantissaOf_append mantissa (by decide) fun c first => ⟨(stops c first).1, (stops c first).2.1⟩
    have tail : exponentOf 101 (e ++ behind) = e :=
      exponentOf_append exponent fun c first =>
        ⟨(stops_exponent blank c first).1, (stops_exponent blank c first).2.1⟩
    rw [List.append_assoc, unsignedOf, marksHex_decimal mantissa exponent blank]
    simp only [Bool.false_and, Bool.false_eq_true, if_false, read, mantissa.any, if_true, List.drop_left, tail]
  | @hexadecimal c m e marked mantissa exponent =>
    have stops := stops_hex_mantissa exponent blank
    have read : mantissaOf isHex (m ++ (e ++ behind)) = m := mantissaOf_append mantissa (by decide) stops
    have tail : exponentOf 112 (e ++ behind) = e :=
      exponentOf_append exponent fun c first =>
        ⟨(stops_exponent blank c first).1, (stops_exponent blank c first).2.2⟩
    have marks : marksHex (48 :: c :: (m ++ (e ++ behind))) = true := marksHex_iff.2 ⟨c, _, rfl, marked⟩
    rw [List.cons_append, List.cons_append, List.append_assoc, unsignedOf, marks]
    simp [read, mantissa.any, tail]

/-- What is read as a number is one, if it is not nothing. -/
theorem unsigned_unsignedOf (some_ : unsignedOf l ≠ []) :
    Unsigned (unsignedOf l) := by
  unfold unsignedOf at some_ ⊢
  dsimp only at some_ ⊢
  split
  · next both =>
    obtain ⟨marks, digits⟩ := Bool.and_eq_true_iff.1 both
    obtain ⟨c, rest, rfl, marked⟩ := marksHex_iff.1 marks
    simp only [List.take_succ_cons, List.take_zero, List.cons_append, List.nil_append]
    exact .hexadecimal marked (mantissa_mantissaOf digits (by decide)) (exponent_exponentOf _ _)
  · next other =>
    rw [if_neg other] at some_
    split
    · next digits => exact .decimal (mantissa_mantissaOf digits (by decide)) (exponent_exponentOf _ _)
    · next none_ => exact absurd (if_neg none_) some_

theorem append_drop_unsignedOf (l : List UInt8) :
    unsignedOf l ++ l.drop (unsignedOf l).length = l := by
  suffices unsignedOf l <+: l from List.prefix_iff_eq_append.1 this
  have parted (digit : UInt8 → Bool) (letter : UInt8) (l : List UInt8) :
      mantissaOf digit l ++ exponentOf letter (l.drop (mantissaOf digit l).length) <+: l := by
    conv_rhs => rw [← append_drop_mantissaOf digit l, ← append_drop_exponentOf letter (l.drop _)]
    exact (List.prefix_append_right_inj _).2 (List.prefix_append _ _)
  unfold unsignedOf
  dsimp only
  split
  · next both =>
    obtain ⟨c, rest, rfl, marked⟩ := marksHex_iff.1 (Bool.and_eq_true_iff.1 both).1
    simpa using parted isHex 112 rest
  · split
    · exact parted isDigit 101 l
    · exact List.nil_prefix

theorem head_unsigned (number : Unsigned u) : ∃ c rest, u = c :: rest ∧ (isHex c = true ∨ c = 46) := by
  cases number with
  | decimal mantissa exponent =>
    cases mantissa with
    | whole some_ digits =>
      obtain ⟨c, rest, rfl⟩ := List.exists_cons_of_ne_nil some_
      exact ⟨c, _, rfl, .inl (isHex_of_isDigit (digits c (by simp)))⟩
    | @pointed ds fs some_ digits fraction =>
      cases ds with
      | nil => exact ⟨46, _, rfl, .inr rfl⟩
      | cons c rest => exact ⟨c, _, rfl, .inl (isHex_of_isDigit (digits c (by simp)))⟩
  | hexadecimal marked mantissa exponent => exact ⟨48, _, rfl, .inl (by decide)⟩

end Parts

/-- The bytes behind white space and a sign. -/
def unsignedPart (l : List UInt8) : List UInt8 :=
  let l := l.dropWhile isSpace
  l.drop (signOf l).bytes.length

/-- White space and a sign are read off a number. -/
theorem unsignedPart_append {front u : List UInt8} (s : Sign) (behind : List UInt8)
    (front_blank : Blank front) (first : ∃ c rest, u = c :: rest ∧ (isHex c = true ∨ c = 46)) :
    signOf ((front ++ (s.bytes ++ (u ++ behind))).dropWhile isSpace) = s ∧
      unsignedPart (front ++ (s.bytes ++ (u ++ behind))) = u ++ behind := by
  obtain ⟨c, rest, rfl, first⟩ := first
  have inner : isSpace c = false ∧ c ≠ 43 ∧ c ≠ 45 := by
    rcases first with digit | rfl
    · exact ⟨isSpace_of_isHex digit, (ne_of_isHex digit).1, (ne_of_isHex digit).2.1⟩
    · decide
  have starts : ∀ d ∈ (s.bytes ++ (c :: rest ++ behind)).head?, isSpace d = false := by
    cases s with
    | absent => simpa [Sign.bytes] using inner.1
    | plus => simp [Sign.bytes]; decide
    | minus => simp [Sign.bytes]; decide
  have signed : signOf (s.bytes ++ (c :: rest ++ behind)) = s :=
    signOf_append s (by simpa using inner.2)
  rw [unsignedPart, dropWhile_run front_blank starts, signed, List.drop_left]
  exact ⟨rfl, rfl⟩

/-- The numerals are what is read from the left as a number up to white space. -/
theorem isNumeral_iff {l : List UInt8} : IsNumeral l ↔ unsignedOf (unsignedPart l) ≠ [] ∧
    Blank ((unsignedPart l).drop (unsignedOf (unsignedPart l)).length) := by
  constructor
  · rintro @⟨front, u, behind, s, front_blank, number, behind_blank⟩
    have first := head_unsigned number
    rw [(unsignedPart_append s _ front_blank first).2, unsignedOf_append number behind_blank, List.drop_left]
    obtain ⟨c, rest, rfl, -⟩ := first
    exact ⟨List.cons_ne_nil c rest, behind_blank⟩
  · rintro ⟨some_, blank⟩
    have parts : l.takeWhile isSpace ++ ((signOf (l.dropWhile isSpace)).bytes ++ (unsignedOf (unsignedPart l) ++
        (unsignedPart l).drop (unsignedOf (unsignedPart l)).length)) = l := by
      rw [append_drop_unsignedOf, unsignedPart, bytes_signOf, List.takeWhile_append_dropWhile]
    rw [← parts]
    exact .parts _ (List.all_eq_true.1 List.all_takeWhile) (unsigned_unsignedOf some_) blank

end NpcDialog.Lua.Numeral
