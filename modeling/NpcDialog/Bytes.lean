/-!
# Byte strings

Scripts work on byte strings, the host on Unicode text.  This file holds the
operations on bytes that the rest of the library needs and the two ways
between bytes and text.

* `Bytes` — a byte string.
* `Bytes.ofText` — the UTF-8 form of a text.
* `Bytes.toText` — decoding, where each maximal ill-formed piece becomes one
  replacement character.
* `Bytes.text` — decoding, where every piece has to be well-formed.
* `Bytes.compare` — the lexicographic order.
* `Bytes.find?` — the first occurrence of one byte string in another.
-/

namespace NpcDialog

/-- A byte string. -/
abbrev Bytes := ByteArray

namespace Bytes

/-- Byte strings are compared byte by byte. -/
instance : LawfulBEq Bytes where
  rfl {a} := beq_self_eq_true a.data
  eq_of_beq {_ _} h := ByteArray.ext (eq_of_beq h)

/-- The UTF-8 form of a text. -/
def ofText (s : String) : Bytes := s.toUTF8

/-- The byte at an index, zero past the end. -/
@[inline] def byteAt (b : Bytes) (i : Nat) : UInt8 :=
  if h : i < b.size then b[i] else 0

/-- The byte string of a list of bytes. -/
def ofList (l : List UInt8) : Bytes := ⟨⟨l⟩⟩

/-- The byte string of one byte. -/
def single (c : UInt8) : Bytes := ByteArray.empty.push c

/-- The bytes from `start` up to and excluding `stop`. -/
@[inline] def slice (b : Bytes) (start stop : Nat) : Bytes := b.extract start stop

/-- `n` copies of one byte. -/
def replicate (n : Nat) (c : UInt8) : Bytes :=
  n.fold (fun _ _ acc => acc.push c) (ByteArray.emptyWithCapacity n)

/-- The concatenation of a list of byte strings with `sep` in between. -/
def join (sep : Bytes) : List Bytes → Bytes
  | [] => ByteArray.empty
  | b :: rest => rest.foldl (fun acc x => acc ++ sep ++ x) b

/-! ## Comparison and search -/

/-- Do the bytes of `b` from index `i` on begin with `pat` from index `j` on?
The first argument is the number of bytes left to compare. -/
def matchesFrom (b pat : Bytes) : Nat → Nat → Nat → Bool
  | 0, _, _ => true
  | n + 1, i, j => b.byteAt i == pat.byteAt j && matchesFrom b pat n (i + 1) (j + 1)

/-- Does `b` hold `pat` at index `i`? -/
def holdsAt (b pat : Bytes) (i : Nat) : Bool :=
  i + pat.size ≤ b.size && matchesFrom b pat pat.size i 0

/-- Does `b` begin with `pat`? -/
def beginsWith (b pat : Bytes) : Bool := b.holdsAt pat 0

/-- Does `b` end with `pat`? -/
def endsWith (b pat : Bytes) : Bool :=
  pat.size ≤ b.size && b.holdsAt pat (b.size - pat.size)

/-- The search behind `find?`: `n` positions from `i` on are tried. -/
def findAux (b pat : Bytes) : Nat → Nat → Option Nat
  | 0, _ => none
  | n + 1, i => if b.holdsAt pat i then some i else findAux b pat n (i + 1)

/-- The first index at or after `start` where `pat` occurs in `b`. -/
def find? (b pat : Bytes) (start : Nat) : Option Nat :=
  findAux b pat (b.size + 1 - start) start

/-- The first index at or after `i` that holds the byte `c`, among `n`
positions. -/
def indexAux (b : Bytes) (c : UInt8) : Nat → Nat → Option Nat
  | 0, _ => none
  | n + 1, i => if b.byteAt i == c then some i else indexAux b c n (i + 1)

/-- The first index at or after `start` that holds the byte `c`. -/
def indexOf? (b : Bytes) (c : UInt8) (start : Nat) : Option Nat :=
  indexAux b c (b.size - start) start

/-- The comparison behind `compare`: at most `n` bytes from index `i` on. -/
def compareAux (a b : Bytes) : Nat → Nat → Ordering
  | 0, _ => Ordering.eq
  | n + 1, i =>
    let x := a.byteAt i
    let y := b.byteAt i
    if x < y then Ordering.lt else if y < x then Ordering.gt else compareAux a b n (i + 1)

/-- The lexicographic order of byte strings, a proper beginning being smaller. -/
def compare (a b : Bytes) : Ordering :=
  match compareAux a b (min a.size b.size) 0 with
  | .eq => if a.size < b.size then Ordering.lt else if b.size < a.size then Ordering.gt else Ordering.eq
  | o => o

/-- The bytes before the first zero byte. -/
def beforeZero (b : Bytes) : Bytes :=
  match b.indexOf? 0 0 with
  | some i => b.slice 0 i
  | none => b

/-- Where `indexAux` finds a byte, and that it is the first. -/
theorem indexAux_eq_some {b : Bytes} {c : UInt8} {n i j : Nat} (h : indexAux b c n i = some j) :
    j < i + n ∧ ∀ k, i ≤ k → k < j → b.byteAt k ≠ c := by
  induction n generalizing i with
  | zero => cases h
  | succ n ih =>
    rw [indexAux] at h
    split at h
    · cases h
      exact ⟨by omega, fun k from_ below => absurd below (by omega)⟩
    · next other =>
      obtain ⟨below, first⟩ := ih h
      refine ⟨by omega, fun k from_ before => ?_⟩
      rcases Nat.eq_or_lt_of_le from_ with rfl | later
      · simpa using other
      · exact first k later before

theorem indexAux_eq_none {b : Bytes} {c : UInt8} {n i : Nat}
    (absent : ∀ k, i ≤ k → k < i + n → b.byteAt k ≠ c) : indexAux b c n i = none := by
  induction n generalizing i with
  | zero => rfl
  | succ n ih =>
    have here : b.byteAt i ≠ c := absent i (Nat.le_refl i) (by omega)
    rw [indexAux, if_neg (by simpa using here)]
    exact ih fun k from_ below => absent k (by omega) (by omega)

theorem byteAt_slice {b : Bytes} {i k : Nat} (inside : i ≤ b.size) (h : k < i) :
    (b.slice 0 i).byteAt k = b.byteAt k := by
  have there : k < b.size := by omega
  have kept : k < min i b.size := by omega
  simp only [byteAt, slice, ByteArray.size_extract, Nat.sub_zero, kept, there, dif_pos,
    ByteArray.getElem_extract, Nat.zero_add]

/-- Before the first zero byte there is none. -/
theorem beforeZero_beforeZero (b : Bytes) : b.beforeZero.beforeZero = b.beforeZero := by
  have none_ : b.beforeZero.indexOf? 0 0 = none := by
    unfold beforeZero
    split
    · next i found =>
      obtain ⟨below, first⟩ := indexAux_eq_some found
      have inside : i ≤ b.size := by omega
      have size : (b.slice 0 i).size = i := by simp [slice]; omega
      refine indexAux_eq_none fun k _ h => ?_
      rw [size] at h
      have earlier : k < i := by omega
      rw [byteAt_slice inside earlier]
      exact first k (Nat.zero_le k) earlier
    · next absent => exact absent
  rw [beforeZero, none_]

/-- The bytes in the opposite order. -/
def reversed (b : Bytes) : Bytes :=
  b.size.fold (fun i _ acc => acc.push (b.byteAt (b.size - 1 - i))) (ByteArray.emptyWithCapacity b.size)

/-- A byte string with a function applied to each byte. -/
def mapBytes (f : UInt8 → UInt8) (b : Bytes) : Bytes :=
  b.size.fold (fun i _ acc => acc.push (f (b.byteAt i))) (ByteArray.emptyWithCapacity b.size)

/-! ## Classes of bytes -/

/-- A decimal digit. -/
@[inline] def isDigit (c : UInt8) : Bool := 48 ≤ c && c ≤ 57

/-- A hexadecimal digit. -/
@[inline] def isHex (c : UInt8) : Bool :=
  isDigit c || (97 ≤ c && c ≤ 102) || (65 ≤ c && c ≤ 70)

/-- The value of a hexadecimal digit. -/
def hexValue (c : UInt8) : Nat :=
  if isDigit c then c.toNat - 48
  else if 97 ≤ c then c.toNat - 87
  else c.toNat - 55

/-- A lower-case letter. -/
@[inline] def isLower (c : UInt8) : Bool := 97 ≤ c && c ≤ 122

/-- An upper-case letter. -/
@[inline] def isUpper (c : UInt8) : Bool := 65 ≤ c && c ≤ 90

/-- A letter. -/
@[inline] def isAlpha (c : UInt8) : Bool := isLower c || isUpper c

/-- A letter or a digit. -/
@[inline] def isAlnum (c : UInt8) : Bool := isAlpha c || isDigit c

/-- White space: blank, tab, line feed, vertical tab, form feed, carriage
return. -/
@[inline] def isSpace (c : UInt8) : Bool := c == 32 || (9 ≤ c && c ≤ 13)

/-- A control byte. -/
@[inline] def isControl (c : UInt8) : Bool := c < 32 || c == 127

/-- A printable byte, the blank included. -/
@[inline] def isPrintable (c : UInt8) : Bool := 32 ≤ c && c ≤ 126

/-- A printable byte that is no blank, letter or digit. -/
@[inline] def isPunct (c : UInt8) : Bool := 33 ≤ c && c ≤ 126 && !isAlnum c

/-- The upper-case form of a letter; other bytes are kept. -/
@[inline] def upper (c : UInt8) : UInt8 := if isLower c then c - 32 else c

/-- The lower-case form of a letter; other bytes are kept. -/
@[inline] def lower (c : UInt8) : UInt8 := if isUpper c then c + 32 else c

/-! ## Text -/

/-- A continuation byte of UTF-8 whose value lies between two bounds. -/
@[inline] def continues (b : Bytes) (i : Nat) (lo hi : UInt8) : Bool :=
  i < b.size && lo ≤ b.byteAt i && b.byteAt i ≤ hi

/-- The lowest six bits of a byte. -/
@[inline] def sixBits (b : Bytes) (i : Nat) : Nat := (b.byteAt i).toNat % 64

/-- One step of decoding at index `i`: the character there and how many bytes
it takes.  An ill-formed piece gives the replacement character and takes the
longest beginning of a well-formed sequence, at least one byte. -/
def decodeAt (b : Bytes) (i : Nat) : Char × Nat :=
  let c := b.byteAt i
  let bad := Char.ofNat 0xFFFD
  if c < 0x80 then (Char.ofNat c.toNat, 1)
  else if c < 0xC2 then (bad, 1)
  else if c < 0xE0 then
    if continues b (i + 1) 0x80 0xBF then
      (Char.ofNat ((c.toNat - 0xC0) * 64 + sixBits b (i + 1)), 2)
    else (bad, 1)
  else if c < 0xF0 then
    let lo : UInt8 := if c == 0xE0 then 0xA0 else 0x80
    let hi : UInt8 := if c == 0xED then 0x9F else 0xBF
    if continues b (i + 1) lo hi then
      if continues b (i + 2) 0x80 0xBF then
        (Char.ofNat ((c.toNat - 0xE0) * 4096 + sixBits b (i + 1) * 64 + sixBits b (i + 2)), 3)
      else (bad, 2)
    else (bad, 1)
  else if c < 0xF5 then
    let lo : UInt8 := if c == 0xF0 then 0x90 else 0x80
    let hi : UInt8 := if c == 0xF4 then 0x8F else 0xBF
    if continues b (i + 1) lo hi then
      if continues b (i + 2) 0x80 0xBF then
        if continues b (i + 3) 0x80 0xBF then
          (Char.ofNat ((c.toNat - 0xF0) * 262144 + sixBits b (i + 1) * 4096
            + sixBits b (i + 2) * 64 + sixBits b (i + 3)), 4)
        else (bad, 3)
      else (bad, 2)
    else (bad, 1)
  else (bad, 1)

/-- Decoding from index `i` on; the first argument bounds the characters. -/
def toTextAux (b : Bytes) : Nat → Nat → String → String
  | 0, _, acc => acc
  | n + 1, i, acc =>
    if i < b.size then
      let (c, width) := decodeAt b i
      toTextAux b n (i + width) (acc.push c)
    else acc

/-- The text of a byte string, each maximal ill-formed piece replaced by one
U+FFFD. -/
def toText (b : Bytes) : String := toTextAux b b.size 0 ""

/-- Are the bytes from index `i` on well-formed UTF-8?  The first argument
bounds the characters. -/
def isTextAux (b : Bytes) : Nat → Nat → Bool
  | 0, _ => true
  | n + 1, i =>
    if i < b.size then
      let (c, width) := decodeAt b i
      if c == Char.ofNat 0xFFFD && !(b.holdsAt (ofList [0xEF, 0xBF, 0xBD]) i) then false
      else isTextAux b n (i + width)
    else true

/-- Is the byte string well-formed UTF-8? -/
def isText (b : Bytes) : Bool := isTextAux b b.size 0

/-- What is wrong with the bytes from index `i` on, if they are not well-formed
UTF-8.  The first argument bounds the characters. -/
def textFaultAux (b : Bytes) : Nat → Nat → String
  | 0, _ => ""
  | n + 1, i =>
    let (c, width) := decodeAt b i
    if c == Char.ofNat 0xFFFD && !(b.holdsAt (ofList [0xEF, 0xBF, 0xBD]) i) then
      let lead := b.byteAt i
      if i + width == b.size && 0xC2 ≤ lead && lead ≤ 0xF4 then
        s!"incomplete utf-8 byte sequence from index {i}"
      else s!"invalid utf-8 sequence of {width} bytes from index {i}"
    else textFaultAux b n (i + width)

/-- The text whose UTF-8 form a byte string is, or what is wrong with it. -/
def text (b : Bytes) : Except String String :=
  match String.fromUTF8? b with
  | some s => .ok s
  | none => .error (textFaultAux b b.size 0)

/-! ## Numerals -/

/-- The decimal numeral of a natural number. -/
def ofNat (n : Nat) : Bytes := ofText n.repr

/-- The decimal numeral of an integer. -/
def ofInt (n : Int) : Bytes :=
  if n < 0 then single 45 ++ ofNat n.natAbs else ofNat n.natAbs

/-- The hexadecimal digits of a number in lower case, at least one. -/
def hexDigits (n : Nat) : Bytes := ofText (String.ofList (Nat.toDigits 16 n))

end Bytes

end NpcDialog
