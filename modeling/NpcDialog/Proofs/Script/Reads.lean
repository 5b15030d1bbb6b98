import NpcDialog.Proofs.Dialog.Contexts
import NpcDialog.Proofs.Script.Entries

/-!
# What an extraction reads

After the program of a source has returned, an extraction reads fields and does
nothing else.  A read may run the script's own functions, which may change what
later reads find; which fields are read, and in which order, depends on nothing
but what the reads before came to.

* `Extraction.ReadsField` — what a read of a field comes to, metamethods included.
* `Extraction.Reads` — one read after another.
* `Extraction.Extracts` — the reads of an extraction and what comes of them.
* `Extraction.extraction_reads` — every extraction makes these reads.
-/

namespace NpcDialog

open Lua
open Bytes (ofText)

namespace Extraction

/-! ## One read -/

/-- What a read of a field comes to in a machine, and the machine behind it.  A
function that is a metamethod is called with the object and the name; a fault
counts as the value of absence. -/
inductive ReadsField (m : Machine) (v : Value) (name : String) : Value → Machine → Prop where
  /-- No function has a say. -/
  | there {found : Value} (looked : m.heap.lookup v (.ofText name) = .value found) :
      ReadsField m v name found m.rested
  /-- A metamethod gives the value. -/
  | handled {f o : Value} {vs : Array Value} {m' : Machine} {w : Conversation}
      (looked : m.heap.lookup v (.ofText name) = .handled f o)
      (called : Machine.nestedCall Machine.run 2 f #[o, .ofText name] m.guarded .empty =
        ((.ok vs, m'), w)) : ReadsField m v name (vs.getD 0 .nil) m'.rested
  /-- A metamethod fails. -/
  | failed {f o : Value} {e : Fault} {m' : Machine} {w : Conversation}
      (looked : m.heap.lookup v (.ofText name) = .handled f o)
      (called : Machine.nestedCall Machine.run 2 f #[o, .ofText name] m.guarded .empty =
        ((.error e, m'), w)) : ReadsField m v name .nil (m'.abandonCall e w).1.2
  /-- There is nothing to read from. -/
  | refused {e : Fault} (absent : ∀ found, m.heap.lookup v (.ofText name) ≠ .value found)
      (unhandled : ∀ f o, m.heap.lookup v (.ofText name) ≠ .handled f o) :
      ReadsField m v name .nil (m.guarded.abandonCall e .empty).1.2

theorem perform_index (run : Runner) (callee : Value) (start : Nat) (m : Machine) (v key : Value)
    (k : Value → Routine) : perform run callee start (Proc.index v key k) m =
      match m.heap.lookup v key with
      | .value found => perform run callee start (k found) m
      | .handled f o =>
        perform run callee start (.call f #[o, key] fun vs => k (vs.getD 0 .nil)) m
      | .notIndexable o _ => pure (.raised (m.placed callee (.message 0
          (ofText "attempt to index a " ++ m.heap.typeName o ++ ofText " value"))), m)
      | .tooLong => pure (.raised (m.placed callee
          (.message 0 (ofText "'__index' chain too long; possibly a loop"))), m) := by
  show perform run callee start (Routine.heap _ _) m = _
  rw [perform]
  dsimp only
  cases m.heap.lookup v key with
  | value found => rfl
  | handled f o => rfl
  | notIndexable o first =>
    show perform run callee start (Routine.heap _ _) m = _
    rw [perform]
    rfl
  | tooLong => rfl

/-- Reading a field comes to what reads come to. -/
theorem readsField (m : Machine) (v : Value) (name : String) :
    ReadsField m v name (m.field v name).1 (m.field v name).2 := by
  have look : m.guarded.heap.toHeap = m.heap.toHeap := rfl
  have refused (f : Fault) (absent : ∀ found, m.heap.lookup v (.ofText name) ≠ .value found)
      (unhandled : ∀ f o, m.heap.lookup v (.ofText name) ≠ .handled f o) :=
    ReadsField.refused (e := f) absent unhandled
  rw [Machine.field, Machine.performMain, perform_index, look]
  cases looked : m.heap.lookup v (.ofText name) with
  | value found => exact .there looked
  | handled f o =>
    simp only [perform, Conversing.alone, Conversing.bind_apply]
    rcases called : Machine.nestedCall Machine.run 2 f #[o, .ofText name] m.guarded .empty with
      ⟨⟨e | vs, m'⟩, w⟩
    · exact .failed looked called
    · exact .handled looked called
  | notIndexable o first =>
    exact refused _ (by simp [looked]) (by simp [looked])
  | tooLong => exact refused _ (by simp [looked]) (by simp [looked])

/-! ## One read after another -/

/-- Where a field is read. -/
inductive Place where
  /-- The table that describes the script. -/
  | descriptor
  /-- The table of globals, whatever describes the script. -/
  | globals
  deriving DecidableEq

/-- The table at a place. -/
def Place.table (d : Value) (m : Machine) : Place → Value
  | .descriptor => d
  | .globals => .table m.heap.globals

/-- A field that was read. -/
structure FieldRead where
  /-- Where it was read. -/
  place : Place
  /-- Its name. -/
  name : String
  /-- What was found. -/
  value : Value
  /-- The code of what was found, if that is a function with code. -/
  code : Option FunctionCode

/-- What was asked for. -/
def FieldRead.asked (r : FieldRead) : Place × String := (r.place, r.name)

/-- One read after another, each in the machine that the one before has left. -/
inductive Reads (d : Value) : Machine → List FieldRead → Machine → Prop where
  /-- Nothing is read. -/
  | nil {m : Machine} : Reads d m [] m
  /-- A field is read, and others later. -/
  | cons {r : FieldRead} {rs : List FieldRead} {m m' m'' : Machine}
      (read : ReadsField m (r.place.table d m) r.name r.value m') (code : r.code = m'.codeOf r.value)
      (later : Reads d m' rs m'') : Reads d m (r :: rs) m''

/-- A read in a machine. -/
def readAt (d : Value) (m : Machine) (place : Place) (name : String) : FieldRead × Machine :=
  match m.field (place.table d m) name with
  | (found, m) => (⟨place, name, found, m.codeOf found⟩, m)

/-- Reads of fields with some names, all in one place. -/
def readAll (d : Value) (place : Place) : List String → Machine → List FieldRead × Machine
  | [], m => ([], m)
  | name :: names, m =>
    match readAt d m place name with
    | (r, m) => match readAll d place names m with
      | (rs, m) => (r :: rs, m)

section ReadAt

variable {d : Value} {m m' m'' : Machine} {place : Place} {name : String} {r : FieldRead}
  {rs : List FieldRead}

theorem readAt_eq (d : Value) (m : Machine) (place : Place) (name : String) :
    readAt d m place name =
      (⟨place, name, (m.field (place.table d m) name).1,
        (m.field (place.table d m) name).2.codeOf (m.field (place.table d m) name).1⟩,
        (m.field (place.table d m) name).2) := by
  unfold readAt
  generalize m.field (place.table d m) name = answer
  rfl

theorem asked_of_readAt (read : readAt d m place name = (r, m')) : r.asked = (place, name) := by
  rw [readAt_eq] at read
  cases read
  rfl

theorem code_of_readAt (read : readAt d m place name = (r, m')) : r.code = m'.codeOf r.value := by
  rw [readAt_eq] at read
  cases read
  rfl

theorem Reads.of_readAt (read : readAt d m place name = (r, m')) (later : Reads d m' rs m'') :
    Reads d m (r :: rs) m'' := by
  rw [readAt_eq] at read
  cases read
  exact .cons (readsField m (place.table d m) name) rfl later

/-- The induction is on the names. -/
theorem reads_readAll (d : Value) (place : Place) (names : List String) (m : Machine) :
    Reads d m (readAll d place names m).1 (readAll d place names m).2 := by
  induction names generalizing m with
  | nil => exact .nil
  | cons name names ih =>
    rcases read : readAt d m place name with ⟨r, m'⟩
    rw [readAll, read]
    exact .of_readAt read (ih m')

theorem asked_readAll (d : Value) (place : Place) (names : List String) (m : Machine) :
    (readAll d place names m).1.map FieldRead.asked = names.map (place, ·) := by
  induction names generalizing m with
  | nil => rfl
  | cons name names ih =>
    rcases read : readAt d m place name with ⟨r, m'⟩
    rw [readAll, read]
    simp only [List.map_cons, asked_of_readAt read, ih]

end ReadAt

theorem Reads.append {d : Value} {m m' m'' : Machine} {rs rs' : List FieldRead}
    (first : Reads d m rs m') (later : Reads d m' rs' m'') : Reads d m (rs ++ rs') m'' := by
  induction first with
  | nil => exact later
  | cons read code _ ih => exact .cons read code (ih later)

/-! ## The reads of an extraction -/

/-- The fields of a descriptor but the entry function, in the order in which they
are read. -/
def fieldNames : List String := ["map", "x", "y", "facing", "name", "sprite"]

/-- The first function among the values that were read. -/
def firstFunction (rs : List FieldRead) : Option FieldRead := rs.find? (·.value.isFunction)

/-- What is kept of an entry function, if there is one. -/
def verdict (config : Config) (found : Option FieldRead) : Except CompileCause (Option Bytecode) :=
  match found.bind FieldRead.code with
  | none => .ok none
  | some f =>
    match lostNames f with
    | .error reason => .error (.unexpected (.notText reason))
    | .ok [] => .ok (some (archive f config.stripDebugInfo))
    | .ok lost => .error (.capturesLocals lost)

/-- The metadata that the values of the fields make. -/
def described (path : String) (code : Option Bytecode) (rs : List FieldRead) : Metadata :=
  let value (i : Nat) : Value := (rs[i]?).elim .nil FieldRead.value
  { path
    map := textOf (value 0)
    x := numberOf (value 1)
    y := numberOf (value 2)
    facing := numberOf (value 3)
    name := textOf (value 4)
    sprite := numberOf (value 5)
    code }

/-- What the log says of the entry function. -/
def entryLines (config : Config) (path : String) (found : Option FieldRead) : List LogLine :=
  match found with
  | none => [.noEntry path]
  | some r =>
    match r.code, verdict config found with
    | none, _ => [.notDumped path]
    | some _, .ok code => code.toList.map fun c => .dumped c.size path
    | some _, .error _ => []

/-- What is reported of a machine that is given up behind its last read: how its program
has used the process. -/
def leftBehind (last : Machine) : List Report := last.release.alone.deeds.reverse.map .process

/-- The reads of an extraction, the machine behind them, and what comes of them. -/
structure Extracts (config : Config) (path : String) (d : Value) (m : Machine) (host : Host)
    (told : Told (Except CompileFault Metadata)) (searched fields : List FieldRead) (last : Machine) :
    Prop where
  /-- These fields are read one after another, and nothing else is done before the machine is
  given up. -/
  reads : Reads d m (searched ++ fields) last ∧
    told.host = { host with files := last.release.alone.heap.files }
  /-- The entry function is looked for in the descriptor, and in the globals if no
  function is there. -/
  search : ∃ first, searched.head? = some first ∧ searched.map FieldRead.asked =
    if first.value.isFunction then [(.descriptor, entryName)]
    else [(.descriptor, entryName), (.globals, entryName)]
  /-- If it is refused, no other field is read. -/
  refused : ∀ cause, verdict config (firstFunction searched) = .error cause →
    fields = [] ∧ told.value = .error ⟨path, cause⟩ ∧
      told.reports =
        (LogLine.extracting path :: entryLines config path (firstFunction searched)).map .line ++
          leftBehind last
  /-- Otherwise the fields of the descriptor are read, which make the metadata. -/
  accepted : ∀ code, verdict config (firstFunction searched) = .ok code →
    let known := described path code fields
    fields.map FieldRead.asked = fieldNames.map (.descriptor, ·) ∧ told.value = .ok known ∧
      told.reports =
        (LogLine.extracting path :: entryLines config path (firstFunction searched)).map .line ++
          leftBehind last ++
            [.line (.extracted known.name known.sprite known.map known.x known.y path)]

/-- The reads that look for the entry function. -/
def search (d : Value) (m : Machine) : List FieldRead × Machine :=
  match readAt d m .descriptor entryName with
  | (r, m) =>
    if r.value.isFunction then ([r], m)
    else
      match readAt d m .globals entryName with
      | (r', m) => ([r, r'], m)

theorem search_cases (d : Value) (m : Machine) :
    (∃ r m', readAt d m .descriptor entryName = (r, m') ∧ r.value.isFunction = true ∧
      search d m = ([r], m')) ∨
    ∃ r m' r' m'', readAt d m .descriptor entryName = (r, m') ∧ r.value.isFunction = false ∧
      readAt d m' .globals entryName = (r', m'') ∧ search d m = ([r, r'], m'') := by
  rcases first : readAt d m .descriptor entryName with ⟨r, m'⟩
  cases isFunction : r.value.isFunction with
  | true => exact .inl ⟨r, m', rfl, isFunction, by simp [search, first, isFunction]⟩
  | false =>
    rcases second : readAt d m' .globals entryName with ⟨r', m''⟩
    exact .inr ⟨r, m', r', m'', rfl, isFunction, second, by simp [search, first, isFunction, second]⟩

theorem reads_search (d : Value) (m : Machine) : Reads d m (search d m).1 (search d m).2 := by
  obtain ⟨r, m', first, -, same⟩ | ⟨r, m', r', m'', first, -, second, same⟩ := search_cases d m
  · rw [same]
    exact .of_readAt first .nil
  · rw [same]
    exact .of_readAt first (.of_readAt second .nil)

theorem head_search (d : Value) (m : Machine) : ∃ first, (search d m).1.head? = some first ∧
    (search d m).1.map FieldRead.asked =
      if first.value.isFunction then [(.descriptor, entryName)]
      else [(.descriptor, entryName), (.globals, entryName)] := by
  obtain ⟨r, m', first, isFunction, same⟩ | ⟨r, m', r', m'', first, other, second, same⟩ :=
    search_cases d m
  · exact ⟨r, by simp [same], by simp [same, isFunction, asked_of_readAt first]⟩
  · exact ⟨r, by simp [same], by simp [same, other, asked_of_readAt first, asked_of_readAt second]⟩

theorem code_firstFunction {d : Value} {m : Machine} {r : FieldRead}
    (found : firstFunction (search d m).1 = some r) : r.code = (search d m).2.codeOf r.value := by
  obtain ⟨q, m', first, isFunction, same⟩ | ⟨q, m', q', m'', first, other, second, same⟩ :=
    search_cases d m
  · rw [same] at found ⊢
    obtain rfl : q = r := by simpa [firstFunction, isFunction] using found
    exact code_of_readAt first
  · rw [same] at found ⊢
    obtain ⟨-, rfl⟩ : q'.value.isFunction = true ∧ q' = r := by
      simpa [firstFunction, other] using found
    exact code_of_readAt second

/-- The entry function is the first function that is found. -/
theorem entry_eq (d : Value) (m : Machine) : entry m d =
    ((firstFunction (search d m).1).map FieldRead.value, (search d m).2) := by
  rcases first : m.field d entryName with ⟨found, m'⟩
  cases isFunction : found.isFunction with
  | true => simp [entry, search, readAt, Place.table, firstFunction, first, isFunction]
  | false =>
    rcases second : m'.field (.table m'.heap.globals) entryName with ⟨found', m''⟩
    cases isFunction' : found'.isFunction <;>
      simp [entry, search, readAt, Place.table, firstFunction, first, isFunction, second, isFunction']

/-- What becomes of the entry function. -/
theorem entryCode_eq (config : Config) (path : String) {m : Machine} {found : Option FieldRead}
    (code : ∀ r, found = some r → r.code = m.codeOf r.value) (host : Host) :
    entryCode config path m (found.map FieldRead.value) host =
      ⟨verdict config found, host, (entryLines config path found).map .line⟩ := by
  cases found with
  | none => rfl
  | some r =>
    have known := code r rfl
    simp only [entryCode, Option.map_some, ← known, verdict, entryLines, Option.bind_some]
    cases r.code with
    | none => rfl
    | some f =>
      rcases judged : lostNames f with reason | ⟨_ | ⟨name, names⟩⟩ <;>
        simp [judged]

theorem fields_eq (path : String) (d : Value) (code : Option Bytecode) (m : Machine) :
    fields path d code m = (described path code (readAll d .descriptor fieldNames m).1,
      (readAll d .descriptor fieldNames m).2) := rfl

variable {config : Config} {path source : String} {host : Host} {returned : Array Value} {m : Machine}

/-- An extraction makes these reads. -/
theorem extracts (ran : evaluated config path source host.files = .ok (.ok returned, m)) :
    ∃ searched fields last, Extracts config path (descriptor m returned) m host
      (Metadata.extract config path source host) searched fields last := by
  generalize whose : descriptor m returned = d
  have code := entryCode_eq config path
    (fun r => code_firstFunction (d := d) (m := m) (r := r)) host
  have searched := reads_search d m
  cases judged : verdict config (firstFunction (search d m).1) with
  | error cause =>
    have told : Metadata.extract config path source host =
        ⟨.error ⟨path, cause⟩, { host with files := (search d m).2.release.alone.heap.files },
          (LogLine.extracting path :: entryLines config path (firstFunction (search d m).1)).map
            .line ++ leftBehind (search d m).2⟩ := by
      simp only [Metadata.extract, Action.bind_apply, Action.log_apply, Action.files_apply, ran, whose,
        entry_eq, code, judged]
      simp [leave, leftBehind]
    refine ⟨(search d m).1, [], (search d m).2, ⟨by rwa [List.append_nil], by rw [told]⟩,
      head_search d m, ?_, ?_⟩
    · intro cause' same
      rw [judged] at same
      cases same
      exact ⟨rfl, by rw [told], by rw [told]⟩
    · intro kept same
      rw [judged] at same
      cases same
  | ok kept =>
    let rest := readAll d .descriptor fieldNames (search d m).2
    let known := described path kept rest.1
    have told : Metadata.extract config path source host =
        ⟨.ok known, { host with files := rest.2.release.alone.heap.files },
          (LogLine.extracting path :: entryLines config path (firstFunction (search d m).1)).map
            .line ++ leftBehind rest.2 ++
              [.line (.extracted known.name known.sprite known.map known.x known.y path)]⟩ := by
      simp only [Metadata.extract, Action.bind_apply, Action.log_apply, Action.files_apply, ran, whose,
        entry_eq, code, judged, fields_eq]
      simp [leave, leftBehind, rest, known]
    refine ⟨(search d m).1, rest.1, rest.2, ⟨searched.append (reads_readAll ..), by rw [told]⟩,
      head_search d m, ?_, ?_⟩
    · intro cause same
      rw [judged] at same
      cases same
    · intro kept' same
      rw [judged] at same
      cases same
      exact ⟨asked_readAll .., by rw [told], by rw [told]⟩

theorem verdict_eq_some {found : Option FieldRead} :
    (∃ code, verdict config found = .ok (some code)) ↔
      ∃ r f, found = some r ∧ r.code = some f ∧ lostNames f = .ok [] := by
  rcases found with _ | r
  · simp [verdict]
  rcases code : r.code with _ | f
  · simp [verdict, code]
  rcases lost : lostNames f with reason | ⟨_ | ⟨name, names⟩⟩ <;> simp [verdict, code, lost]

theorem verdict_eq_none {found : Option FieldRead} :
    verdict config found = .ok none ↔ ∀ r, found = some r → r.code = none := by
  rcases found with _ | r
  · simp [verdict]
  rcases code : r.code with _ | f
  · simp [verdict, code]
  rcases lost : lostNames f with reason | ⟨_ | ⟨name, names⟩⟩ <;> simp [verdict, code, lost]

namespace Extracts

variable {d : Value} {told : Told (Except CompileFault Metadata)} {searched fields : List FieldRead}
  {last : Machine}

/-- The code of the metadata is what is kept of the entry function. -/
theorem code_iff (e : Extracts config path d m host told searched fields last) (code : Option Bytecode) :
    (∃ known, told.value = .ok known ∧ known.code = code) ↔
      verdict config (firstFunction searched) = .ok code := by
  cases judged : verdict config (firstFunction searched) with
  | error cause => simp [(e.refused cause judged).2.1]
  | ok kept => simp [(e.accepted kept judged).2.1, described]

/-- There is code just if the first function that was found has code and loses no
captured variable. -/
theorem hasCode_iff (e : Extracts config path d m host told searched fields last) :
    (∃ known, told.value = .ok known ∧ known.code.isSome) ↔
      ∃ r f, firstFunction searched = some r ∧ r.code = some f ∧ lostNames f = .ok [] := by
  rw [← @verdict_eq_some config]
  constructor
  · rintro ⟨known, accepted, has⟩
    obtain ⟨code, has⟩ := Option.isSome_iff_exists.1 has
    exact ⟨code, (e.code_iff _).1 ⟨known, accepted, has⟩⟩
  · rintro ⟨code, judged⟩
    obtain ⟨known, accepted, has⟩ := (e.code_iff _).2 judged
    exact ⟨known, accepted, by rw [has, Option.isSome_some]⟩

/-- There is metadata without code just if no function was found, or the first one
has no code. -/
theorem noCode_iff (e : Extracts config path d m host told searched fields last) :
    (∃ known, told.value = .ok known ∧ known.code = none) ↔
      ∀ r, firstFunction searched = some r → r.code = none := by
  rw [e.code_iff, verdict_eq_none]

/-- A fault comes before any field but the entry function is read. -/
theorem fields_of_error (e : Extracts config path d m host told searched fields last) {f : CompileFault}
    (failed : told.value = .error f) : fields = [] := by
  cases judged : verdict config (firstFunction searched) with
  | error cause => exact (e.refused cause judged).1
  | ok code =>
    rw [(e.accepted code judged).2.1] at failed
    cases failed

end Extracts

/-- After the program of a source has returned, an extraction is a sequence of reads.

The entry function is looked for in the descriptor and, if no function is there, in
the globals; unless it is refused, six more fields of the descriptor are read, each
once and in a fixed order, whatever metamethods do.  What the reads come to decides
everything else. -/
theorem extraction_reads (ran : evaluated config path source host.files = .ok (.ok returned, m)) :
    ∃ searched fields last,
      let told := Metadata.extract config path source host
      Extracts config path (descriptor m returned) m host told searched fields last ∧
        ((∃ known, told.value = .ok known ∧ known.code.isSome) ↔
          ∃ r f, firstFunction searched = some r ∧ r.code = some f ∧ lostNames f = .ok []) ∧
        ((∃ known, told.value = .ok known ∧ known.code = none) ↔
          ∀ r, firstFunction searched = some r → r.code = none) ∧
        ∀ f, told.value = .error f → fields = [] := by
  obtain ⟨searched, fields, last, e⟩ := extracts ran
  exact ⟨searched, fields, last, e, e.hasCode_iff, e.noCode_iff, fun f => e.fields_of_error⟩

/-- A script whose descriptor counts the reads, and fails at one of them. -/
def countingReads : String :=
  "local n = 0\nreturn setmetatable(\x7b\x7d, \x7b __index = function(t, k)\n  n = n + 1\n" ++
    "  if k == 'name' then error('no name') end\n  return n\nend \x7d)\n"

example :
    (Metadata.extract .default "count.lua" countingReads (.start .empty)).value.toOption =
      some ⟨"count.lua", "2", 3, 4, 5, "", 7, none⟩ := by
  decide +kernel

theorem evaluated_countingReads :
    ((evaluated .default "count.lua" countingReads .empty).toOption.bind
      fun ran => ran.1.toOption).isSome = true := by
  decide +kernel

theorem extraction_reads_countingReads : ∃ returned m,
    evaluated .default "count.lua" countingReads .empty = .ok (.ok returned, m) ∧
      ∃ searched fields last, Extracts .default "count.lua" (descriptor m returned) m (.start .empty)
        (Metadata.extract .default "count.lua" countingReads (.start .empty)) searched fields last := by
  have some_ := evaluated_countingReads
  rcases ran : evaluated .default "count.lua" countingReads .empty with cause | ⟨failure | returned, m⟩
  · simp [ran, Except.toOption] at some_
  · simp [ran, Except.toOption] at some_
  · have started : evaluated .default "count.lua" countingReads (Host.start .empty).files =
        .ok (.ok returned, m) := ran
    obtain ⟨searched, fields, last, e, -⟩ := extraction_reads started
    exact ⟨returned, m, rfl, searched, fields, last, e⟩

end Extraction

end NpcDialog
