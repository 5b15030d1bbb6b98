import NpcDialog.Proofs.Script.Reads
import NpcDialog.Proofs.Text.NumeralScans

/-!
# The integers of a descriptor

An integer of a descriptor may be written as an integer or as a numeral.  Either way
it is read as that integer if it fits in 32 bits, and as zero if it does not: nothing
is cut off.  Numerals are read as a running program reads them, so hexadecimal ones
wrap around in 64 bits first.

* `Extraction.StandsFor` — the integers that values stand for.
* `Extraction.NoNumber` — the values that stand for no number.
* `Extraction.integer_fields_never_truncate` — what integer fields are read as.
-/

namespace NpcDialog

/-- The integers of a script, each with the name of its field. -/
def Metadata.integers (k : Metadata) : List (String × Int) :=
  [("x", k.x), ("y", k.y), ("facing", k.facing), ("sprite", k.sprite)]

namespace Extraction

open Lua
open Lua.Numeral (Sign Blank IsNumeral valueOf)
open Bytes (ofText isDigit isHex)

/-- What a field of a table is read as, where an integer is expected. -/
def integerField (m : Machine) (table : Value) (name : String) : Int := numberOf (m.field table name).1

/-- What a field of a table is read as, where a text is expected. -/
def textField (m : Machine) (table : Value) (name : String) : String := textOf (m.field table name).1

/-- An integer, or zero if it does not fit in 32 bits. -/
def fittedTo32 (n : Int) : Int := if -0x80000000 ≤ n ∧ n ≤ 0x7FFFFFFF then n else 0

/-- Which integer a value stands for. -/
inductive StandsFor : Value → Int → Prop where
  /-- An integer stands for itself. -/
  | integer (n : Int64) : StandsFor (.int n) n.toInt
  /-- Decimal digits, at least one, stand for a number of 64 bits. -/
  | decimal {b : Bytes} {front ds behind : List UInt8} (s : Sign)
      (placed : b.data.toList = front ++ (s.bytes ++ (ds ++ behind))) (front_blank : Blank front)
      (some_ : ds ≠ []) (digits : ∀ c ∈ ds, isDigit c = true) (behind_blank : Blank behind)
      (low : -0x8000000000000000 ≤ s.applyTo (valueOf 10 ds))
      (high : s.applyTo (valueOf 10 ds) < 0x8000000000000000) :
      StandsFor (.str b) (s.applyTo (valueOf 10 ds))
  /-- Hexadecimal digits, as many as there are, stand for a number in two's complement. -/
  | hexadecimal {b : Bytes} {front ds behind : List UInt8} (s : Sign) {c : UInt8} (marked : c = 120 ∨ c = 88)
      (placed : b.data.toList = front ++ (s.bytes ++ (48 :: c :: ds ++ behind))) (front_blank : Blank front)
      (digits : ∀ c ∈ ds, isHex c = true) (behind_blank : Blank behind) :
      StandsFor (.str b) ((s.applyTo (valueOf 16 ds)).bmod (2 ^ 64))

/-- Which values stand for no number. -/
inductive NoNumber : Value → Prop where
  /-- A string that is no numeral. -/
  | text {b : Bytes} (other : ¬IsNumeral b.data.toList) : NoNumber (.str b)
  /-- Neither a number nor a string. -/
  | other {v : Value} (number : v.number? = none) (text : ∀ b, v ≠ .str b) : NoNumber v

section Values

variable {v : Value} {n : Int}

theorem numberOf_of_toInteger? {n : Int64} (known : v.toInteger? = some n) : numberOf v = fittedTo32 n.toInt := by
  rw [numberOf, known, fittedTo32]
  dsimp only
  congr 1
  rw [eq_iff_iff]
  omega

theorem toInteger?_of_integer? {b : Bytes} {n : Int64} (read : Numeral.integer? b = some n) :
    (Value.str b).toInteger? = some n := by
  simp [Value.toInteger?, Numeral.read?, read]

/-- A value that stands for an integer is read as that integer, if it fits. -/
theorem numberOf_standsFor (stands : StandsFor v n) : numberOf v = fittedTo32 n := by
  cases stands with
  | integer n => exact numberOf_of_toInteger? rfl
  | decimal s placed front_blank some_ digits behind_blank low high =>
    have read := Numeral.integer?_decimal placed front_blank some_ digits behind_blank low high
    rw [numberOf_of_toInteger? (toInteger?_of_integer? read), Int64.toInt_ofInt_of_le low high]
  | @hexadecimal b front ds behind s c marked placed front_blank digits behind_blank =>
    by_cases none_ : ds = []
    · subst none_
      have read := Numeral.read?_marked marked placed front_blank behind_blank
      have zero : (s.applyTo (valueOf 16 [])).bmod (2 ^ 64) = 0 := by cases s <;> rfl
      rw [zero]
      simp [numberOf, Value.toInteger?, read, fittedTo32]
    · have read := Numeral.integer?_hexadecimal marked placed front_blank none_ digits behind_blank
      rw [numberOf_of_toInteger? (toInteger?_of_integer? read), Int64.toInt_ofInt]
      rfl

theorem numberOf_noNumber (none_ : NoNumber v) : numberOf v = 0 := by
  have unknown : v.toInteger? = none := by
    cases none_ with
    | text other =>
      rw [← Numeral.read?_isSome_iff, Option.not_isSome_iff_eq_none] at other
      simp [Value.toInteger?, other]
    | other number text =>
      cases v with
      | int n => simp [Value.number?] at number
      | float x => simp [Value.number?] at number
      | str b => exact absurd rfl (text b)
      | _ => rfl
  rw [numberOf, unknown]

/-- The text of an integer is its decimal numeral. -/
theorem textOf_int (n : Int64) : textOf (.int n) = n.toInt.repr := by
  simp [textOf, Args.textOf?, Number.toText, Numeral.ofInt_eq]

/-- The text of an integer is read as the integer is. -/
theorem numberOf_textOf_int (n : Int64) : numberOf (.ofText (textOf (.int n))) = numberOf (.int n) := by
  rw [textOf_int, Value.ofText,
    numberOf_of_toInteger? (toInteger?_of_integer? (Numeral.integer?_repr n)), numberOf_of_toInteger? rfl]

end Values

/-- The machine in which a field of a descriptor is read: the fields before it have been. -/
def readsBefore (d : Value) (m : Machine) (name : String) : Machine :=
  (readAll d .descriptor (fieldNames.takeWhile (· != name)) m).2

/-- The integers of a script are what its integer fields are read as. -/
theorem integers_fields (path : String) (d : Value) (code : Option Bytecode) (m : Machine) :
    ∀ p ∈ (fields path d code m).1.integers, p.2 = integerField (readsBefore d m p.1) d p.1 := by
  intro p among
  simp only [Metadata.integers, List.mem_cons, List.not_mem_nil, or_false] at among
  rcases among with rfl | rfl | rfl | rfl <;> rfl

/-- A field that no metamethod has a say in. -/
theorem field_of_lookup {m : Machine} {v found : Value} {name : String}
    (looked : m.heap.lookup v (.ofText name) = .value found) : (m.field v name).1 = found := by
  have look : m.guarded.heap.toHeap = m.heap.toHeap := rfl
  rw [Machine.field, Machine.performMain, perform_index, look, looked]
  rfl

/-- No integer of a descriptor is ever cut off.

A field that holds an integer, or a numeral for one, is read as that integer if it
fits in 32 bits and as zero if it does not; a field that holds no number is read as
zero.  The text of an integer is its decimal numeral, and a field that holds this text
is read as one that holds the integer.  The integers of every script are read so. -/
theorem integer_fields_never_truncate (m : Machine) (d : Value) :
    (∀ name n, StandsFor (m.field d name).1 n → integerField m d name = fittedTo32 n) ∧
      (∀ name, NoNumber (m.field d name).1 → integerField m d name = 0) ∧
      (∀ name (n : Int64), (m.field d name).1 = .int n → textField m d name = n.toInt.repr ∧
        ∀ m' d' name', (m'.field d' name').1 = .ofText (textField m d name) →
          integerField m' d' name' = integerField m d name) ∧
      ∀ path code, ∀ p ∈ (fields path d code m).1.integers,
        p.2 = integerField (readsBefore d m p.1) d p.1 := by
  refine ⟨fun name n => numberOf_standsFor, fun name => numberOf_noNumber, ?_,
    fun path code => integers_fields path d code m⟩
  intro name n held
  refine ⟨by rw [textField, held, textOf_int], ?_⟩
  intro m' d' name' same
  rw [integerField, integerField, same, textField, held, numberOf_textOf_int]

/-- A machine with one table, whose fields are a numeral, a word and an integer. -/
def oneTable : Machine :=
  let h := (Heap.empty .empty).newTable .empty
  let h := h.2.rawSetStr 0 (ofText "x") (.ofText " -0x10\n")
  let h := h.rawSetStr 0 (ofText "y") (.ofText "ten")
  .idle (h.rawSetStr 0 (ofText "facing") (.ofNat 0x100000000))

theorem field_oneTable : (oneTable.field (.table 0) "x").1 = .ofText " -0x10\n" ∧
    (oneTable.field (.table 0) "y").1 = .ofText "ten" ∧
    (oneTable.field (.table 0) "facing").1 = .int (Int64.ofNat 0x100000000) :=
  ⟨field_of_lookup rfl, field_of_lookup rfl, field_of_lookup rfl⟩

/-- A word is no numeral. -/
theorem not_isNumeral_ten : ¬IsNumeral (ofText "ten").data.toList := by
  rw [Numeral.isNumeral_iff]
  exact fun numeral => numeral.1 (by decide)

theorem integer_fields_oneTable : integerField oneTable (.table 0) "x" = -16 ∧
    integerField oneTable (.table 0) "y" = 0 ∧ integerField oneTable (.table 0) "facing" = 0 ∧
    textField oneTable (.table 0) "facing" = "4294967296" := by
  obtain ⟨fitted, none_, text, -⟩ := integer_fields_never_truncate oneTable (.table 0)
  obtain ⟨x, y, facing⟩ := field_oneTable
  have sixteen : StandsFor (oneTable.field (.table 0) "x").1 (-16) := by
    have placed : (ofText " -0x10\n").data.toList =
        [32] ++ (Sign.minus.bytes ++ (48 :: 120 :: [49, 48] ++ [10])) := by decide
    rw [x]
    exact .hexadecimal .minus (.inl rfl) placed (List.all_eq_true.1 rfl) (List.all_eq_true.1 rfl)
      (List.all_eq_true.1 rfl)
  have large : StandsFor (oneTable.field (.table 0) "facing").1 0x100000000 := by
    rw [facing]
    exact .integer (Int64.ofNat 0x100000000)
  refine ⟨fitted "x" _ sixteen, none_ "y" (by rw [y]; exact .text not_isNumeral_ten),
    fitted "facing" _ large, ?_⟩
  rw [(text "facing" _ facing).1]
  rfl

end Extraction

end NpcDialog
