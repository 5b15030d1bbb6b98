import Mathlib
import NpcDialog.Lua.Code.Archive
import NpcDialog.Proofs.Text.Decoding

/-!
# Archives and what they hold

An archive gives back the function it was made of, with all inner ones and all
notes.  Each reader is the inverse of its writer, whatever stands behind what
was written; so the readers of larger things are inverses because those of their
parts are, and that of a function is by induction on the function.

* `Archive.Reads` — a reader gives back what was written, and leaves the rest.
* `Archive.numbersOf_bytes` — the numbers of bytes are those that were written.
* `Archive.reads_function` — a function is read back.
* `Archive.read_archive` — an archive is read back.
-/

namespace NpcDialog.Lua.Archive

open Bytes (ofText)

/-! ## Numbers as bytes -/

/-- The bytes of a number, `k` of them at most. -/
def spelled : Nat → Nat → List UInt8
  | 0, _ => []
  | k + 1, n =>
    if n < 128 then [n.toUInt8] else (128 + n % 128).toUInt8 :: spelled k (n / 128)

theorem toList_numberBytes (k n : Nat) (acc : Bytes) :
    (numberBytes k n acc).data.toList = acc.data.toList ++ spelled k n := by
  induction k generalizing n acc with
  | zero => simp [numberBytes, spelled]
  | succ k ih =>
    unfold numberBytes spelled
    split
    · simp
    · simp [ih]

/-- The bytes of several numbers. -/
def spelledAll (words : List Nat) : List UInt8 := words.flatMap fun n => spelled (numberSize n) n

theorem toList_foldl_numberBytes (words : List Nat) (acc : Bytes) :
    (words.foldl (fun acc n => numberBytes (numberSize n) n acc) acc).data.toList =
      acc.data.toList ++ spelledAll words := by
  induction words generalizing acc with
  | nil => simp [spelledAll]
  | cons n words ih => simp [ih, toList_numberBytes, spelledAll]

theorem lt_numberSize (n : Nat) : n < 128 ^ numberSize n := by
  have wide : n.log2 + 1 ≤ 7 * numberSize n := by
    unfold numberSize
    omega
  calc n < 2 ^ (n.log2 + 1) := Nat.lt_log2_self
    _ ≤ 2 ^ (7 * numberSize n) := Nat.pow_le_pow_right (by decide) wide
    _ = 128 ^ numberSize n := Nat.pow_mul 2 7 _

theorem go_small {n : Nat} (small : n < 128) (value place : Nat) (rest : List UInt8)
    (acc : List Nat) :
    numbersOf.go value place (n.toUInt8 :: rest) acc =
      numbersOf.go 0 1 rest ((value + place * n) :: acc) := by
  have byte : n.toUInt8.toNat = n := by
    simp
    omega
  have low : n.toUInt8 < 128 := by
    rw [UInt8.lt_iff_toNat_lt, byte]
    exact small
  rw [numbersOf.go, if_pos low, byte]

theorem go_great {n : Nat} (value place : Nat) (rest : List UInt8) (acc : List Nat) :
    numbersOf.go value place ((128 + n % 128).toUInt8 :: rest) acc =
      numbersOf.go (value + place * (n % 128)) (place * 128) rest acc := by
  have byte : (128 + n % 128).toUInt8.toNat = 128 + n % 128 := by
    simp
    omega
  have high : ¬ (128 + n % 128).toUInt8 < 128 := by
    rw [UInt8.lt_iff_toNat_lt, byte]
    exact Nat.not_lt.2 (Nat.le_add_right 128 _)
  rw [numbersOf.go, if_neg high, byte, Nat.add_sub_cancel_left]

/-- The induction is on the bytes that there are for the number. -/
theorem go_spelled {k n : Nat} (fits : n < 128 ^ (k + 1)) (value place : Nat) (rest : List UInt8)
    (acc : List Nat) :
    numbersOf.go value place (spelled (k + 1) n ++ rest) acc =
      numbersOf.go 0 1 rest ((value + place * n) :: acc) := by
  induction k generalizing n value place with
  | zero =>
    have small : n < 128 := by simpa using fits
    rw [spelled, if_pos small]
    exact go_small small value place rest acc
  | succ k ih =>
    rw [spelled]
    split
    · next small => exact go_small small value place rest acc
    · have fits' : n / 128 < 128 ^ (k + 1) := by
        rw [Nat.pow_succ] at fits
        exact Nat.div_lt_of_lt_mul (by rwa [Nat.mul_comm])
      have sum : value + place * (n % 128) + place * 128 * (n / 128) = value + place * n := by
        rw [Nat.add_assoc, Nat.mul_assoc, ← Nat.mul_add, Nat.mod_add_div]
      rw [List.cons_append, go_great, ih fits', sum]

/-- The numbers of bytes are those that were written. -/
theorem numbersOf_spelledAll (words : List Nat) : numbersOf (spelledAll words) = some words := by
  have from_ : ∀ acc, numbersOf.go 0 1 (spelledAll words) acc = some (acc.reverse ++ words) := by
    induction words with
    | nil => simp [spelledAll, numbersOf.go]
    | cons n words ih =>
      intro acc
      have step : numbersOf.go 0 1 (spelled (numberSize n) n ++ spelledAll words) acc =
          numbersOf.go 0 1 (spelledAll words) ((0 + 1 * n) :: acc) :=
        go_spelled (lt_numberSize n) 0 1 (spelledAll words) acc
      rw [spelledAll, List.flatMap_cons, ← spelledAll, step, ih]
      simp
  simpa [numbersOf] using from_ []

/-! ## Readers -/

/-- A reader gives back what was written as some numbers, and leaves what stands behind
them. -/
def Reads {α : Type} (r : Reader α) (x : α) (words : List Nat) : Prop :=
  ∀ rest, r.run (words ++ rest) = some (x, rest)

theorem Reads.run_bind {α β : Type} {r : Reader α} {x : α} {words : List Nat} (h : Reads r x words)
    (f : α → Reader β) (rest : List Nat) : (r >>= f).run (words ++ rest) = (f x).run rest := by
  simp [h rest]

theorem Reads.map {α β : Type} {r : Reader α} {x : α} {words : List Nat} (h : Reads r x words)
    (f : α → β) (rest : List Nat) :
    (r.run (words ++ rest)).bind (fun read => some (f read.1, read.2)) = some (f x, rest) := by
  rw [h rest]
  rfl

@[simp] theorem run_number_bind {β : Type} (f : Nat → Reader β) (n : Nat) (rest : List Nat) :
    (number >>= f).run (n :: rest) = (f n).run rest := rfl

theorem reads_bool (b : Bool) : Reads bool b [ofBool b] := by
  cases b <;> exact fun _ => rfl

@[simp] theorem run_bool_bind {β : Type} (f : Bool → Reader β) (b : Bool) (rest : List Nat) :
    (bool >>= f).run (ofBool b :: rest) = (f b).run rest := (reads_bool b).run_bind f rest

@[simp] theorem toInt_ofInt (i : Int) : toInt (ofInt i) = i := by
  unfold ofInt toInt
  by_cases negative : i < 0
  · simp [negative]
    omega
  · simp [negative]
    omega

/-! ## Lists -/

/-- The induction is on what is still to be read. -/
theorem run_repeated {α : Type} {r : Reader α} {f : α → List Nat} (xs : List α) (acc : Array α)
    (each : ∀ x ∈ xs, Reads r x (f x)) (rest : List Nat) :
    (repeated r xs.length acc).run (xs.flatMap f ++ rest) = some (acc ++ xs.toArray, rest) := by
  induction xs generalizing acc with
  | nil => simp [repeated]
  | cons x xs ih =>
    have first : Reads r x (f x) := each x (by simp)
    rw [List.length_cons, repeated, List.flatMap_cons, List.append_assoc, first.run_bind,
      ih (acc.push x) fun y mem => each y (by simp [mem])]
    simp

theorem length_le_length_flatMap {α : Type} {f : α → List Nat} (xs : List α)
    (some_ : ∀ x ∈ xs, f x ≠ []) : xs.length ≤ (xs.flatMap f).length := by
  induction xs with
  | nil => simp
  | cons x xs ih =>
    have first : 0 < (f x).length := List.length_pos_iff.2 (some_ x (by simp))
    have others : xs.length ≤ (xs.flatMap f).length := ih fun y mem => some_ y (by simp [mem])
    rw [List.flatMap_cons, List.length_append, List.length_cons]
    omega

/-- Things are read back if each of them is, and if none is written without a number. -/
theorem reads_items {α : Type} {r : Reader α} {f : α → List Nat} {xs : Array α}
    (each : ∀ x ∈ xs, Reads r x (f x)) (some_ : ∀ x ∈ xs, f x ≠ []) :
    Reads (items r) xs (ofItems f xs) := by
  intro rest
  have enough : ¬ (xs.toList.flatMap f ++ rest).length < xs.size := by
    have long := length_le_length_flatMap xs.toList (by simpa using some_)
    rw [Array.length_toList] at long
    rw [List.length_append]
    omega
  have read := run_repeated xs.toList #[] (by simpa using each) rest
  rw [Array.length_toList] at read
  rw [ofItems, List.cons_append, items, run_number_bind]
  show (if _ then failure else repeated r xs.size #[] : Reader _).run _ = _
  rw [if_neg enough, read]
  simp

theorem reads_number (n : Nat) : Reads number n [n] := fun _ => rfl

theorem reads_bytes (b : Bytes) : Reads bytes b (ofBytes b) := by
  have written : ofBytes b = ofItems (fun n => [n]) (b.data.map UInt8.toNat) := by
    simp [ofBytes, ofItems]
  have listed : Reads (items number) (b.data.map UInt8.toNat) (ofBytes b) := by
    rw [written]
    exact reads_items (fun n _ => reads_number n) (by simp)
  intro rest
  rw [bytes, listed.run_bind]
  show some (ByteArray.mk ((b.data.map UInt8.toNat).map Nat.toUInt8), rest) = _
  have same : (b.data.map UInt8.toNat).map Nat.toUInt8 = b.data := by
    simp [Function.comp_def]
  rw [same]

/-! ## Constants and instructions -/

theorem reads_const (k : Const) : Reads const k (ofConst k) := by
  intro rest
  cases k with
  | nil => rfl
  | bool b => cases b <;> rfl
  | int n => exact congrArg (fun n => some (Const.int n, rest)) (by simp)
  | float bits => exact congrArg (fun bits => some (Const.float bits, rest)) (by simp)
  | str s => exact (reads_bytes s).map Const.str rest

theorem reads_source (v : Source) : Reads source v (ofSource v) := by
  intro rest
  cases v with
  | reg r => rfl
  | const k => rfl
  | small i asFloat =>
    cases asFloat with
    | false => exact congrArg (fun i => some (Source.small i false, rest)) (toInt_ofInt i)
    | true => exact congrArg (fun i => some (Source.small i true, rest)) (toInt_ofInt i)

theorem reads_instr (i : Instr) : Reads instr i (ofInstr i) := by
  intro rest
  cases i with
  | loadInt a i => exact congrArg (fun i => some (Instr.loadInt a i, rest)) (toInt_ofInt i)
  | loadFloat a i => exact congrArg (fun i => some (Instr.loadFloat a i, rest)) (toInt_ofInt i)
  | setCapturedField a b v => exact (reads_source v).map (Instr.setCapturedField a b) rest
  | setIndex a b v => exact (reads_source v).map (Instr.setIndex a b) rest
  | setInt a b v => exact (reads_source v).map (Instr.setInt a b) rest
  | setField a b v => exact (reads_source v).map (Instr.setField a b) rest
  | self a b v => exact (reads_source v).map (Instr.self a b) rest
  | arith op a b v flipped =>
    cases op <;> cases flipped <;> exact (reads_source v).map (Instr.arith _ a b · _) rest
  | compare op a v k =>
    cases op <;> cases k <;> exact (reads_source v).map (Instr.compare _ a · _) rest
  | test a k | testSet a b k => cases k <;> rfl
  | call a args results => cases args <;> cases results <;> rfl
  | tailCall a n closing | «return» a n closing => cases n <;> cases closing <;> rfl
  | setList a n offset => cases n <;> rfl
  | vararg a n => cases n <;> rfl
  | _ => rfl

theorem ofConst_ne_nil (k : Const) : ofConst k ≠ [] := by
  cases k <;> exact List.cons_ne_nil _ _

theorem ofInstr_ne_nil (i : Instr) : ofInstr i ≠ [] := by
  cases i <;> exact List.cons_ne_nil _ _

/-! ## Functions -/

theorem reads_name (n : Option Bytes) : Reads name n (ofName n) := by
  intro rest
  cases n with
  | none => rfl
  | some s => exact (reads_bytes s).map some rest

theorem reads_local (l : LocalNote) :
    Reads (do return ⟨← bytes, ← number, ← number⟩) l (ofBytes l.name ++ [l.start, l.stop]) := by
  intro rest
  rw [List.append_assoc, (reads_bytes l.name).run_bind]
  rfl

theorem reads_capture (c : CaptureSource) :
    Reads (do return ⟨← bool, ← number⟩) c [ofBool c.fromRegister, c.index] := by
  intro rest
  rw [List.cons_append, run_bool_bind]
  rfl

theorem reads_notes (n : FunctionNotes) : Reads notes n (ofNotes n) := by
  intro rest
  have lines : Reads (items number) n.lines (ofItems (fun l => [l]) n.lines) :=
    reads_items (fun l _ => reads_number l) (by simp)
  have locals := reads_items (fun l (_ : l ∈ n.locals) => reads_local l) (by simp [ofBytes])
  have names := reads_items (fun s (_ : s ∈ n.captureNames) => reads_bytes s) (by simp [ofBytes])
  unfold notes ofNotes
  simp only [List.append_assoc]
  rw [(reads_name n.source).run_bind, (reads_number n.lineDefined).run_bind, lines.run_bind,
    locals.run_bind, names.run_bind]
  rfl

theorem ofFunctions_eq (fs : List FunctionCode) : ofFunctions fs = fs.flatMap ofFunction := by
  induction fs with
  | nil => rfl
  | cons f rest ih => rw [ofFunctions, ih, List.flatMap_cons]

theorem ofFunction_ne_nil (f : FunctionCode) : ofFunction f ≠ [] := by
  cases f
  simp [ofFunction]

/-- A function is read back, if it is not nested more deeply than there are numbers.
The induction is on the function: inner functions take fewer numbers than it does. -/
theorem reads_function : ∀ (f : FunctionCode) {n : Nat}, (ofFunction f).length ≤ n →
    Reads (function n) f (ofFunction f) := by
  refine FunctionCode.rec
    (motive_1 := fun f => ∀ {n : Nat}, (ofFunction f).length ≤ n →
      Reads (function n) f (ofFunction f))
    (motive_2 := fun fs => ∀ {n : Nat}, (ofFunctions fs).length ≤ n → ∀ f ∈ fs,
      Reads (function n) f (ofFunction f)) ?mk ?nil ?cons
  case nil => exact fun _ _ mem => absurd mem (List.not_mem_nil)
  case cons =>
    intro f rest ihf ihrest n room g mem
    rw [ofFunctions, List.length_append] at room
    rcases List.mem_cons.1 mem with rfl | mem
    · exact ihf (Nat.le_trans (Nat.le_add_right _ _) room)
    · exact ihrest (Nat.le_trans (Nat.le_add_left _ _) room) g mem
  case mk =>
    intro params isVararg registers code consts captures n children ih bound room rest
    have inner : (ofFunctions children).length + 1 ≤ bound := by
      refine Nat.le_trans ?_ room
      simp only [ofFunction, List.length_append, List.length_cons]
      omega
    obtain ⟨k, rfl⟩ : ∃ k, bound = k + 1 := ⟨bound - 1, by omega⟩
    have instrs := reads_items (fun i (_ : i ∈ code) => reads_instr i) fun i _ => ofInstr_ne_nil i
    have constants := reads_items (fun c (_ : c ∈ consts) => reads_const c) fun c _ => ofConst_ne_nil c
    have captured := reads_items (fun c (_ : c ∈ captures) => reads_capture c) (by simp)
    have functions : Reads (items (function k)) children.toArray
        (children.length :: ofFunctions children) := by
      rw [ofFunctions_eq]
      exact reads_items (fun f mem => ih (by omega) f (by simpa using mem))
        (fun f _ => ofFunction_ne_nil f)
    unfold ofFunction function
    simp only [List.append_assoc, List.cons_append, List.nil_append]
    rw [run_number_bind, run_bool_bind, run_number_bind, instrs.run_bind, constants.run_bind,
      captured.run_bind, (reads_notes n).run_bind, ← List.cons_append, functions.run_bind]
    rfl

/-! ## Archives -/

variable {b : Bytes} {behind : List UInt8} {i : Nat}

/-- Behind all parts of the head the rest begins.  The induction is on the parts. -/
theorem skipHead_of_drop (parts : List (Bytes × String)) (some_ : ∀ part ∈ parts, 0 < part.1.size)
    (there : b.data.toList.drop i = parts.flatMap (fun part => part.1.data.toList) ++ behind) :
    ∃ j, skipHead b i parts = .ok j ∧ b.data.toList.drop j = behind := by
  induction parts generalizing i with
  | nil => exact ⟨i, rfl, there⟩
  | cons part parts ih =>
    obtain ⟨part, reason⟩ := part
    have first : 0 < part.size := some_ (part, reason) (by simp)
    rw [List.flatMap_cons, List.append_assoc] at there
    have next : b.data.toList.drop (i + part.size) =
        parts.flatMap (fun part => part.1.data.toList) ++ behind := by
      rw [← List.drop_drop, there, ← ByteArray.size_data, ← Array.length_toList, List.drop_left]
    have room : ¬ b.size < i + part.size := Nat.not_lt.2 (Bytes.size_of_drop there first)
    rw [skipHead, if_neg room, if_pos (Bytes.holdsAt_of_drop there first)]
    exact ih (fun part mem => some_ part (by simp [mem])) next

theorem toList_foldl_append (parts : List (Bytes × String)) (acc : Bytes) :
    (parts.foldl (fun acc part => acc ++ part.1) acc).data.toList =
      acc.data.toList ++ parts.flatMap fun part => part.1.data.toList := by
  induction parts generalizing acc with
  | nil => simp
  | cons part parts ih => simp [ih]

theorem toList_archive (c : Chunk) : c.archive.data.toList =
    firstByte :: (head.flatMap (fun part => part.1.data.toList) ++ spelledAll (ofFunction c)) := by
  rw [FunctionCode.archive, toList_foldl_numberBytes, toList_foldl_append]
  rfl

/-- An archive gives back the function it was made of. -/
theorem read_archive (c : Chunk) : read c.archive = .ok c := by
  have whole : c.archive.data.toList.drop 1 =
      head.flatMap (fun part => part.1.data.toList) ++ spelledAll (ofFunction c) := by
    rw [toList_archive, List.drop_succ_cons, List.drop_zero]
  obtain ⟨i, skipped, there⟩ := skipHead_of_drop head (by decide) whole
  have words : numbersOf (c.archive.slice i c.archive.size).data.toList = some (ofFunction c) := by
    have tail : (c.archive.slice i c.archive.size).data.toList = c.archive.data.toList.drop i := by
      rw [Bytes.slice, ByteArray.data_extract, Array.toList_extract, List.extract_eq_take_drop,
        ← ByteArray.size_data, ← Array.length_toList, ← List.length_drop, List.take_length]
    rw [tail, there, numbersOf_spelledAll]
  have found := reads_function c (Nat.le_refl _) []
  rw [List.append_nil] at found
  rw [read, skipped]
  simp [bind, Except.bind, words, found]

end NpcDialog.Lua.Archive
