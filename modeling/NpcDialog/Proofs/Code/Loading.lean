import NpcDialog.Proofs.Machine.Calls
import NpcDialog.Proofs.Machine.Functions

/-!
# Loading texts only

The functions that load code judge by the first byte of a chunk whether it is a text
or an archive, and take only those that their mode allows.  With the mode of texts
they make a function of a text and of nothing else, whatever their other arguments
are.

* `FunctionCode.IsOfText` — the code of a text.
* `Routine.LoadsText` — a routine that makes a function of a text, or none.
* `Routine.LoadsText.perform` — what comes of such a routine.
* `Loading.loadsText_load`, `Loading.loadsText_loadFile` — loading is such a routine.
-/

namespace NpcDialog.Lua

open Bytes (ofText)
open Conversing (Ensures)

/-- The code is that of a text with these bytes, which are no archive. -/
structure FunctionCode.IsOfText (c : FunctionCode) (bytes : Bytes) : Prop where
  text : Archive.isArchive bytes = false
  compiled : ∃ name room, Chunk.compile name bytes room = .ok c

/-! ## Routines that load texts -/

/-- A routine at whose end there is a new function of a text of some kind, or nothing
and what was wrong with the chunk, unless it fails.  Before that it only looks around
and calls the reader of the chunk, if there may be one. -/
inductive Routine.LoadsText (reads : Bool) (kind : Bytes → Prop) : Routine → Prop
  /-- A function of a text, and no other result. -/
  | made {c : Chunk} {bytes : Bytes} (allowed : kind bytes) (text : c.IsOfText bytes)
    (env : Option Value) {k : Value → Routine} (gives : ∀ f, k f = .done (.results #[f])) :
    LoadsText reads kind (.install c env k)
  /-- Nothing, and what was wrong. -/
  | refused (e : Value) : LoadsText reads kind (.done (.results #[.nil, e]))
  /-- A fault. -/
  | fails (f : LibFault) : LoadsText reads kind (.fail f)
  /-- It looks at the heap. -/
  | read {α : Type} (f : Heap → α) {k : α → Routine} (later : ∀ x, LoadsText reads kind (k x)) :
    LoadsText reads kind (.heap (fun h => (f h, h)) k)
  /-- It calls the reader. -/
  | attempt (allowed : reads = true) (f : Value) (args : Array Value) {k : Except Value (Array Value) → Routine}
    (later : ∀ x, LoadsText reads kind (k x)) : LoadsText reads kind (.attempt f args k)
  /-- It reads a standard stream. -/
  | streams {k : Routine} (later : LoadsText reads kind k) :
    LoadsText reads kind (.process .streams k)
  /-- It looks how much room there is. -/
  | room {k : Nat → Routine} (later : ∀ n, LoadsText reads kind (k n)) : LoadsText reads kind (.room k)
  /-- It looks where it was called. -/
  | place (level : Nat) {k : Bytes → Routine} (later : ∀ s, LoadsText reads kind (k s)) :
    LoadsText reads kind (.place level k)

/-- The values are what loading comes to: nothing and what was wrong with the chunk, or
a function of a text of some kind. -/
inductive Machine.Loaded (kind : Bytes → Prop) (m : Machine) : Array Value → Prop
  /-- Nothing, and what was wrong. -/
  | refused (e : Value) : Loaded kind m #[.nil, e]
  /-- A function of a text. -/
  | made {f : Value} {c : FunctionCode} {bytes : Bytes} (allowed : kind bytes)
    (text : c.IsOfText bytes) (code : m.codeOf f = some c) : Loaded kind m #[f]

/-- What comes of a routine that loads: a fault, or what loading comes to. -/
inductive Outcome.OfLoading (kind : Bytes → Prop) (m : Machine) : Outcome → Prop
  | fails (f : Fault) : OfLoading kind m (.raised f)
  | ends {vs : Array Value} (loaded : m.Loaded kind vs) : OfLoading kind m (.ended (.results vs))

theorem Machine.Loaded.of_closures {kind : Bytes → Prop} {m m' : Machine} {vs : Array Value}
    (h : m.Loaded kind vs) (same : m'.heap.closures = m.heap.closures) : m'.Loaded kind vs := by
  cases h with
  | refused e => exact .refused e
  | @made f c bytes allowed text code =>
    refine .made allowed text ?_
    rw [← code]
    cases f <;> simp only [codeOf, same]

theorem Machine.codeOf_install (m : Machine) (c : Chunk) (first : Value) :
    (m.install c first).2.codeOf (m.install c first).1 = some c := by
  simp [install, Store.makeFunction_eq, codeOf, Store.charge]

namespace Routine.LoadsText

variable {reads : Bool} {kind : Bytes → Prop} {r : Routine}

/-- What comes of a routine that loads texts.  The induction is on the routine. -/
theorem perform (h : r.LoadsText reads kind) (run : Runner) (callee : Value) (start : Nat)
    (m : Machine) : Ensures (fun answer => answer.1.OfLoading kind answer.2 ∧ m.Stays answer.2)
      (Lua.perform run callee start r m) := by
  induction h generalizing m with
  | made allowed text env gives =>
    rw [Lua.perform]
    simp only [gives, Lua.perform]
    exact .pure ⟨.ends (.made allowed text (m.codeOf_install _ _)), .of_eq rfl rfl⟩
  | refused e => exact .pure ⟨.ends (.refused e), .refl m⟩
  | fails f => exact .pure ⟨.fails _, .refl m⟩
  | read f later ih => exact ih _ m
  | attempt allowed f args later ih =>
    rw [Lua.perform]
    refine .bind (Machine.Stays.attemptCall _ _ _ m) fun answer stays v => ?_
    obtain ⟨ends, still⟩ := ih answer.1 answer.2 v
    exact ⟨ends, stays.trans still⟩
  | streams later ih =>
    intro v
    obtain ⟨ends, still⟩ := ih (m.doing .streams) (v.tell (.process .streams))
    have done : m.Stays (m.doing .streams) := .of_eq rfl rfl
    exact ⟨ends, done.trans still⟩
  | room later ih => exact ih _ m
  | place level later ih =>
    intro v
    obtain ⟨ends, still⟩ := ih _ (m.showing (m.placeAt level).isSome) v
    exact ⟨ends, (Machine.Stays.showing m _).trans still⟩

/-- A routine that calls no reader changes only what there is to be changed to make a
function, and tells nothing but that it reads a standard stream.  The induction is on the
routine. -/
theorem perform_silent (h : r.LoadsText false kind) (run : Runner) (callee : Value) (start : Nat)
    (m : Machine) (v : Conversation) : ∃ o m' w,
      Lua.perform run callee start r m v = ((o, m'), w) ∧ v.OnlyStreams w ∧
      m'.frames = m.frames ∧ m'.pc = m.pc ∧ m'.stack = m.stack := by
  induction h generalizing m v with
  | @made c bytes allowed text env k gives =>
    let made := m.install c (env.getD (.table m.heap.globals))
    refine ⟨.ended (.results #[made.1]), made.2, v, ?_, .refl v, rfl, rfl, rfl⟩
    rw [Lua.perform]
    simp only [gives, Lua.perform]
    rfl
  | refused e => exact ⟨_, m, v, rfl, .refl v, rfl, rfl, rfl⟩
  | fails f => exact ⟨_, m, v, rfl, .refl v, rfl, rfl, rfl⟩
  | read f later ih => exact ih _ m v
  | attempt allowed f args later ih => cases allowed
  | streams later ih =>
    obtain ⟨o, m', w, performed, told, kept⟩ := ih (m.doing .streams) (v.tell (.process .streams))
    exact ⟨o, m', w, performed, told.of_tell, kept⟩
  | room later ih => exact ih _ m v
  | place level later ih =>
    obtain ⟨o, m', w, performed, told, frames, pc, stack⟩ :=
      ih _ (m.showing (m.placeAt level).isSome) v
    exact ⟨o, m', w, performed, told, frames, pc, stack⟩

end Routine.LoadsText

/-! ## Constructions -/

namespace Proc

theorem pure_bind {α β : Type} (x : α) (f : α → Proc β) : (Pure.pure x >>= f : Proc β) = f x := rfl

variable {α β : Type} {reads : Bool} {kind : Bytes → Prop}

/-- The part of such a routine that comes before its end. -/
def Looks (reads : Bool) (kind : Bytes → Prop) (p : Proc α) : Prop :=
  ∀ k, (∀ x, (k x).LoadsText reads kind) → (p k).LoadsText reads kind

/-- The end of such a routine. -/
def Loads (reads : Bool) (kind : Bytes → Prop) (p : Proc Ending) : Prop := (Routine.of p).LoadsText reads kind

theorem Looks.pure (x : α) : (Pure.pure x : Proc α).Looks reads kind := fun _ later => later x

theorem Looks.fail (f : LibFault) : (fail f : Proc α).Looks reads kind := fun _ _ => .fails f

theorem Looks.read (f : Heap → α) : (read f).Looks reads kind := fun _ later => .read f later

theorem Looks.bind {p : Proc α} {f : α → Proc β} (first : p.Looks reads kind)
    (later : ∀ x, (f x).Looks reads kind) : (p >>= f).Looks reads kind :=
  fun k ends => first _ fun x => later x k ends

theorem Looks.loads {p : Proc α} {f : α → Proc Ending} (first : p.Looks reads kind)
    (later : ∀ x, (f x).Loads reads kind) : (p >>= f).Loads reads kind := first _ later

end Proc

/-! ## Arguments -/

namespace Args

variable {reads : Bool} {kind : Bytes → Prop} (a : Args) (n : Nat)

theorem looks_mismatch {α : Type} (expected : String) :
    (a.mismatch n expected : Proc α).Looks reads kind := .bind (.read _) fun _ => .fail _

theorem looks_text : (a.text n).Looks reads kind := by
  unfold text
  split
  · exact .pure _
  · exact a.looks_mismatch n _

theorem looks_text? : (a.text? n).Looks reads kind := by
  unfold text?
  split
  · exact .pure none
  · exact .bind (a.looks_text n) fun _ => .pure _

theorem looks_textOr (other : Bytes) : (a.textOr n other).Looks reads kind :=
  .bind (a.looks_text? n) fun _ => .pure _

theorem looks_function : (a.function n).Looks reads kind := by
  unfold function
  extract_lets f
  split
  · exact .pure f
  · exact a.looks_mismatch n _

/-- A string that may be left out, and is given or left out. -/
theorem textOr_eq (given : a.isAbsent n = true ∨ (textOf? (a.get n)).isSome = true)
    (other : Bytes) : ∃ s, a.textOr n other = pure s := by
  unfold textOr text?
  split
  · exact ⟨other, rfl⟩
  · next present =>
    obtain ⟨s, text⟩ := Option.isSome_iff_exists.1 (given.resolve_left present)
    refine ⟨s, ?_⟩
    rw [Args.text, text]
    rfl

/-- A string that is given. -/
theorem textOr_str {s : Bytes} (given : a.get n = .str s) (other : Bytes) :
    a.textOr n other = pure s := by
  have present : a.isAbsent n = false := by
    rw [isAbsent, given]
    rfl
  have text : a.text n = pure s := by
    rw [text, given]
    rfl
  rw [textOr, text?, present, if_neg Bool.false_ne_true, text]
  rfl

end Args

/-! ## Loading -/

namespace Loading

/-- The mode of texts. -/
def textMode : Bytes := ofText "t"

theorem beforeZero_textMode : textMode.beforeZero = textMode := by decide +kernel

/-- In the mode of texts just the archives are refused. -/
theorem modeFault_textMode (bytes : Bytes) : modeFault bytes textMode =
    if Archive.isArchive bytes then some (modeMessage "binary" textMode) else none := by
  have texts : (textMode.indexOf? 116 0).isNone = false := by decide +kernel
  have archives : (textMode.indexOf? 98 0).isNone = true := by decide +kernel
  rw [modeFault, texts, archives]
  simp

/-- In the mode of texts a chunk is the code of a text. -/
theorem isOfText_of_readChunk {name bytes : Bytes} {room : Nat} {c : Chunk}
    (read : readChunk name bytes textMode room = .ok c) : c.IsOfText bytes := by
  unfold readChunk at read
  rw [modeFault_textMode] at read
  cases archive : Archive.isArchive bytes with
  | true =>
    rw [archive] at read
    cases read
  | false =>
    rw [archive] at read
    cases compiled : Chunk.compile name bytes room with
    | ok c' =>
      simp [compiled] at read
      exact ⟨archive, name, room, read ▸ compiled⟩
    | error e => cases e <;> simp [compiled] at read

/-- An archive is none. -/
theorem readChunk_archive {bytes : Bytes} (archive : Archive.isArchive bytes = true) (name : Bytes)
    (room : Nat) : readChunk name bytes textMode room = .error (modeMessage "binary" textMode) := by
  rw [readChunk, modeFault_textMode, if_pos archive]

theorem loads_loaded {reads : Bool} (kind : Bytes → Prop) {bytes : Bytes} (allowed : kind bytes) (name : Bytes)
    (env : Option Value) : (loadChunk name bytes textMode env >>= loaded).Loads reads kind := by
  refine Routine.LoadsText.room fun room => ?_
  dsimp only
  cases read : readChunk name bytes textMode room with
  | ok c => exact .made allowed (isOfText_of_readChunk read) env fun _ => rfl
  | error message => exact .refused (.str message)

variable {kind : Bytes → Prop}

theorem looks_piece (reader : Value) : (piece reader).Looks true kind := by
  refine .bind (fun _ later => .attempt rfl reader #[] later) fun answer => ?_
  cases answer with
  | error v => exact .pure _
  | ok vs =>
    dsimp only
    split
    · exact .pure _
    · split
      · exact .pure _
      · exact .bind (fun _ later => .place 1 later) fun s => .pure _

/-- The induction is on the bound for the pieces. -/
theorem looks_pieces (reader : Value) (n : Nat) (acc : Bytes) :
    (pieces reader n acc).Looks true kind := by
  induction n generalizing acc with
  | zero => exact .pure _
  | succ n ih =>
    refine .bind (looks_piece reader) fun p => ?_
    cases p with
    | last => exact .pure _
    | fault v => exact .pure _
    | more s => exact ih (acc ++ s)

theorem loads_loadPieces (reader : Value) (name : Bytes) (env : Option Value)
    (all : ∀ bytes, kind bytes) : (loadPieces reader name textMode env).Loads true kind := by
  refine (looks_piece reader).loads fun p => ?_
  cases p with
  | fault v => exact .refused v
  | last => exact loads_loaded kind (all _) name env
  | more first =>
    dsimp only
    split
    · exact .refused _
    · refine (looks_pieces reader _ _).loads fun x => ?_
      cases x with
      | error v => exact .refused v
      | ok bytes => exact loads_loaded kind (all _) name env

/-- Loading in the mode of texts.  If the chunk is given as a string, it is this text. -/
theorem loads_load {a : Args} (mode : a.get 3 = .str textMode) :
    (load a).Loads true fun bytes => ∀ s, Args.textOf? (a.get 1) = some s → bytes = s := by
  rw [load, a.textOr_str 3 mode, Proc.pure_bind]
  split
  · next s text =>
    refine (a.looks_textOr 2 _).loads fun name => ?_
    rw [beforeZero_textMode]
    exact loads_loaded _ (fun s' same => Option.some.inj (text.symm.trans same)) _ _
  · next reader =>
    refine (a.looks_textOr 2 _).loads fun name => (a.looks_function 1).loads fun f => ?_
    rw [beforeZero_textMode]
    refine loads_loadPieces f _ _ fun bytes s text => ?_
    cases reader.symm.trans text

/-- Loading a file in the mode of texts. -/
theorem loads_loadFile {a : Args} (mode : a.get 2 = .str textMode) :
    (loadFile a).Loads false fun _ => True := by
  refine (a.looks_text? 1).loads fun file => ?_
  rw [a.textOr_str 2 mode]
  show Proc.Loads _ _ (loadFrom _ textMode.beforeZero _ >>= loaded)
  rw [beforeZero_textMode]
  cases file with
  | none => exact .streams (@loads_loaded false _ ByteArray.empty trivial (ofText "=stdin") _)
  | some path =>
    refine Routine.LoadsText.read _ fun contents => ?_
    cases contents with
    | ok contents => exact loads_loaded (fun _ => True) trivial _ _
    | error e => exact .refused _

/-! ## Archives -/

/-- What is said of an archive. -/
def refusal : Bytes := modeMessage "binary" textMode

/-- An archive makes no function. -/
theorem loaded_archive {bytes : Bytes} (archive : Archive.isArchive bytes = true) (name : Bytes)
    (env : Option Value) : (loadChunk name bytes textMode env >>= loaded) Routine.done =
      .room fun _ => .done (.results #[.nil, .str refusal]) := by
  simp only [loadChunk, bind, readChunk_archive archive]
  rfl

/-- A piece of an archive is the first that its reader gives. -/
theorem piece_more (reader : Value) {vs : Array Value} {s : Bytes}
    (text : Args.textOf? (vs.getD 0 .nil) = some s) (archive : Archive.isArchive s = true) :
    ∃ g, piece reader = Proc.attempt reader #[] >>= g ∧ g (.ok vs) = pure (.more s) := by
  refine ⟨_, rfl, ?_⟩
  have some_ : (s.size == 0) = false := by
    simp only [Archive.isArchive, Bool.and_eq_true, bne_iff_ne] at archive
    simpa using archive.1
  dsimp only
  generalize vs.getD 0 .nil = x at text
  cases x with
  | nil => cases text
  | _ => simp only [text, some_, Bool.false_eq_true, if_false]

section Refused

variable (run : Runner) (callee : Value) (start : Nat) (m : Machine) (v : Conversation)

/-- An archive that is given as a string is refused, and nothing else happens. -/
theorem perform_load_archive {a : Args} (mode : a.get 3 = .str textMode)
    (named : a.isAbsent 2 = true ∨ (Args.textOf? (a.get 2)).isSome = true) {s : Bytes}
    (text : Args.textOf? (a.get 1) = some s) (archive : Archive.isArchive s = true) :
    perform run callee start (Routine.of (load a)) m v =
      ((.ended (.results #[.nil, .str refusal]), m), v) := by
  obtain ⟨name, chunkName⟩ := a.textOr_eq 2 named s
  have routine : Routine.of (load a) = .room fun _ => .done (.results #[.nil, .str refusal]) := by
    rw [load, a.textOr_str 3 mode, text]
    show (a.textOr 2 s >>= fun name =>
      loadChunk name.beforeZero s textMode.beforeZero _ >>= loaded) _ = _
    rw [chunkName, beforeZero_textMode]
    exact loaded_archive archive _ _
  rw [routine]
  rfl

/-- An archive of which a reader gives the first piece is refused, and the reader is
asked for no more. -/
theorem perform_load_piece {a : Args} (mode : a.get 3 = .str textMode)
    (named : a.isAbsent 2 = true ∨ (Args.textOf? (a.get 2)).isSome = true)
    (reader : (a.get 1).isFunction = true) {vs : Array Value} {m' : Machine} {v' : Conversation}
    (gave : Machine.attemptCall run (start + 1) (a.get 1) #[] m v = ((.ok vs, m'), v')) {s : Bytes}
    (text : Args.textOf? (vs.getD 0 .nil) = some s) (archive : Archive.isArchive s = true) :
    perform run callee start (Routine.of (load a)) m v =
      ((.ended (.results #[.nil, .str refusal]), m'), v') := by
  obtain ⟨name, chunkName⟩ := a.textOr_eq 2 named (ofText "=(load)")
  obtain ⟨g, asked, answered⟩ := piece_more (a.get 1) text archive
  have noText : Args.textOf? (a.get 1) = none := by
    cases value : a.get 1 <;> first | rfl | simp [value, Value.isFunction] at reader
  have function : a.function 1 = pure (a.get 1) := if_pos reader
  have fault : modeFault s textMode = some refusal := by
    rw [modeFault_textMode, if_pos archive]
    rfl
  have routine : Routine.of (load a) =
      loadPieces (a.get 1) name.beforeZero textMode (environment a 4) .done := by
    rw [load, a.textOr_str 3 mode, noText]
    show (a.textOr 2 _ >>= fun name =>
      a.function 1 >>= fun f => loadPieces f name.beforeZero textMode.beforeZero _) _ = _
    rw [chunkName, function, beforeZero_textMode]
    rfl
  rw [routine, loadPieces, asked]
  show perform run callee start (.attempt (a.get 1) #[] fun x => g x fun p => _) m v = _
  rw [perform, Conversing.bind_apply, gave]
  dsimp only
  rw [answered]
  simp only [pure, fault]
  rfl

/-- A file that holds an archive is refused. -/
theorem perform_loadFile_archive {a : Args} (mode : a.get 2 = .str textMode) {path : Bytes}
    (file : Args.textOf? (a.get 1) = some path) {contents : Bytes}
    (there : m.heap.files.read path.beforeZero = .ok contents)
    (archive : Archive.isArchive (codeOf contents) = true) :
    perform run callee start (Routine.of (loadFile a)) m v =
      ((.ended (.results #[.nil, .str refusal]), m), v) := by
  have given : a.text? 1 = pure (some path) := by
    have present : a.isAbsent 1 = false := by
      cases value : a.get 1 <;> simp [value, Args.textOf?] at file <;> simp [Args.isAbsent, value, Value.isNil]
    rw [Args.text?, present, if_neg Bool.false_ne_true, Args.text, file]
    rfl
  rw [loadFile, given, a.textOr_str 2 mode]
  show perform run callee start ((loadFrom (some path.beforeZero) textMode.beforeZero _ >>= loaded) _)
    m v = _
  rw [beforeZero_textMode]
  simp only [loadFrom, bind, Proc.read, perform, there]
  show perform run callee start ((loadChunk _ (codeOf contents) textMode _ >>= loaded) _) m v = _
  rw [loaded_archive archive]
  rfl

end Refused

end Loading

/-- The value names a file that holds an archive. -/
def Heap.HoldsArchive (h : Heap) (file : Value) : Prop :=
  ∃ path contents, Args.textOf? file = some path ∧ h.files.read path.beforeZero = .ok contents ∧
    Archive.isArchive (Loading.codeOf contents) = true

end NpcDialog.Lua
