import NpcDialog.Proofs.Code.Archive
import NpcDialog.Proofs.Dialog.Contexts
import NpcDialog.Proofs.Machine.Functions
import NpcDialog.Script.Extraction

/-!
# Entry functions

Which entry functions an extraction accepts, and what is kept of them.  A captured
variable does not survive in an archive, apart from the table of globals.  Whether a
function captures anything else is judged by what its captured variables are called,
and a variable that is called like the environment may hold any value.

* `Extraction.entryFunction?` — the code of a source's entry function.
* `Extraction.extract_of_entry`, `Extraction.entry_of_extract` — what an extraction
  makes of it.
* `Extraction.refused_iff`, `Extraction.accepted_iff` — it goes by the lost names.
* `Extraction.lostNames_eq_ok` — the names that are told of as lost.
* `Extraction.compile_named` — compiled code has a name for every captured variable.
* `Extraction.gate_goes_by_names` — when an entry function is accepted, and what it is
  loaded as.
-/

namespace NpcDialog

open Lua
open Bytes (ofText)

/-- Is a function another one, or written somewhere in it? -/
inductive Lua.FunctionCode.Within (f : FunctionCode) : FunctionCode → Prop where
  /-- It is the function itself. -/
  | self : Within f f
  /-- It is within an inner function. -/
  | inner {g h : FunctionCode} (mem : g ∈ h.children) (within : Within f g) : Within f h

/-- A byte string is read as a text just if it is the text's UTF-8 form. -/
theorem Bytes.text_eq_ok {b : Bytes} {s : String} : b.text = .ok s ↔ b = ofText s := by
  unfold Bytes.text String.fromUTF8?
  by_cases wellFormed : b.IsValidUTF8
  · simp only [wellFormed, dif_pos]
    constructor
    · rintro ⟨⟩
      rfl
    · rintro rfl
      rfl
  · simp only [wellFormed, dif_neg, not_false_eq_true]
    refine ⟨nofun, ?_⟩
    rintro rfl
    exact absurd s.isValidUTF8 wellFormed

theorem Bytes.ofText_inj {s t : String} (same : ofText s = ofText t) : s = t :=
  Except.ok.inj ((Bytes.text_eq_ok.2 rfl).symm.trans (Bytes.text_eq_ok.2 same))

namespace Extraction

/-- The entry function of a source in the machine that has evaluated the source, if
it could be evaluated and has one. -/
def entryValue? (config : Config) (path source : String) (files : FileTree) :
    Option (Machine × Value) :=
  match evaluated config path source files with
  | .ok (.ok returned, m) =>
    match entry m (descriptor m returned) with
    | (found, m) => found.map fun v => (m, v)
  | _ => none

/-- The code of a source's entry function, if it has one with code. -/
def entryFunction? (config : Config) (path source : String) (files : FileTree) :
    Option FunctionCode :=
  (entryValue? config path source files).bind fun found => found.1.codeOf found.2

variable {config : Config} {path source : String} {host : Host} {f : FunctionCode}

/-- What comes of a source that has an entry function with code. -/
theorem extract_of_entry (found : entryFunction? config path source host.files = some f) :
    ∃ known : Metadata, known.code = some (archive f config.stripDebugInfo) ∧
      (Metadata.extract config path source host).value =
        match lostNames f with
        | .error reason => .error ⟨path, .unexpected (.notText reason)⟩
        | .ok [] => .ok known
        | .ok lost => .error ⟨path, .capturesLocals lost⟩ := by
  obtain ⟨⟨m', v⟩, found, code⟩ := Option.bind_eq_some_iff.1 found
  unfold entryValue? at found
  split at found
  case h_2 => cases found
  next returned m evaluated =>
  generalize entered : entry m (descriptor m returned) = e at found
  obtain ⟨_ | v, m'⟩ := e <;> cases found
  refine ⟨(fields path (descriptor m returned) (some (archive f config.stripDebugInfo)) m').1,
    rfl, ?_⟩
  simp only [Metadata.extract, Action.bind_apply, Action.log_apply, Action.files_apply, evaluated,
    entered, entryCode, code]
  cases lostNames f with
  | error reason => rfl
  | ok lost => cases lost <;> rfl

/-- Such an entry function is refused with the names of the captured variables that are
lost, if there are any. -/
theorem refused_iff (found : entryFunction? config path source host.files = some f)
    (lost : List String) :
    (Metadata.extract config path source host).value = .error ⟨path, .capturesLocals lost⟩ ↔
      lost ≠ [] ∧ lostNames f = .ok lost := by
  obtain ⟨known, -, result⟩ := extract_of_entry found
  rw [result]
  rcases lostNames f with reason | ⟨_ | ⟨name, names⟩⟩
  · simp
  · simp only [reduceCtorEq, false_iff, Except.ok.injEq]
    exact fun ⟨some_, none_⟩ => some_ none_.symm
  · simpa using fun same => by simp [← same]

/-- Without such an entry function there is no code. -/
theorem code_of_no_entry {known : Metadata}
    (missing : entryFunction? config path source host.files = none)
    (accepted : (Metadata.extract config path source host).value = .ok known) :
    known.code = none := by
  simp only [Metadata.extract, Action.bind_apply, Action.log_apply, Action.files_apply] at accepted
  rcases result : evaluated config path source host.files with cause | ⟨failure | returned, m⟩
  · simp only [result] at accepted
    cases accepted
  · simp only [result] at accepted
    cases accepted
  · simp only [entryFunction?, entryValue?, result] at missing accepted
    generalize entry m (descriptor m returned) = e at missing accepted
    obtain ⟨v, m'⟩ := e
    cases v with
    | none =>
      cases accepted
      rfl
    | some v =>
      have missing : m'.codeOf v = none := missing
      simp only [entryCode, missing] at accepted
      cases accepted
      rfl

/-- Code comes only of an entry function that has code and loses nothing. -/
theorem entry_of_extract {known : Metadata} {code : Bytecode}
    (accepted : (Metadata.extract config path source host).value = .ok known)
    (has : known.code = some code) :
    ∃ f, entryFunction? config path source host.files = some f ∧ lostNames f = .ok [] ∧
      code = archive f config.stripDebugInfo := by
  cases found : entryFunction? config path source host.files with
  | some f =>
    refine ⟨f, rfl, ?_⟩
    obtain ⟨known', kept, result⟩ := extract_of_entry found
    rw [result] at accepted
    cases lost : lostNames f with
    | error reason => simp [lost] at accepted
    | ok names =>
      cases names with
      | nil =>
        simp only [lost, Except.ok.injEq] at accepted
        subst accepted
        exact ⟨rfl, Option.some.inj (has.symm.trans kept)⟩
      | cons name names => simp [lost] at accepted
  | none => simp [code_of_no_entry found accepted] at has

/-- An entry function is accepted with its code just if it loses nothing. -/
theorem accepted_iff (found : entryFunction? config path source host.files = some f) :
    (∃ known code, (Metadata.extract config path source host).value = .ok known ∧
      known.code = some code) ↔ lostNames f = .ok [] := by
  constructor
  · rintro ⟨known, code, accepted, has⟩
    obtain ⟨g, found', nothing, -⟩ := entry_of_extract accepted has
    rwa [← Option.some.inj (found.symm.trans found')] at nothing
  · intro nothing
    obtain ⟨known, kept, result⟩ := extract_of_entry found
    exact ⟨known, _, by rw [result, nothing], kept⟩

/-! ## Names of captured variables -/

theorem mapM_text {names : List Bytes} {texts : List String} :
    names.mapM Bytes.text = .ok texts ↔ names = texts.map ofText := by
  induction names generalizing texts with
  | nil => cases texts <;> simp [pure, Except.pure]
  | cons name names ih =>
    rw [List.mapM_cons]
    cases first : name.text with
    | error reason =>
      refine ⟨nofun, fun same => ?_⟩
      obtain ⟨s, texts, rfl, rfl, -⟩ := List.map_eq_cons_iff.1 same.symm
      rw [Bytes.text_eq_ok.2 rfl] at first
      cases first
    | ok s =>
      obtain rfl := Bytes.text_eq_ok.1 first
      cases others : names.mapM Bytes.text with
      | error reason =>
        refine ⟨nofun, fun same => ?_⟩
        obtain ⟨s', texts, rfl, -, rest⟩ := List.map_eq_cons_iff.1 same.symm
        rw [ih.2 rest.symm] at others
        cases others
      | ok found =>
        obtain rfl := ih.1 others
        show Except.ok (s :: found) = Except.ok texts ↔ (s :: found).map ofText = texts.map ofText
        rw [Except.ok.injEq, List.map_inj_right fun s t => Bytes.ofText_inj]

/-- The lost names are those of all captured variables that are not called like the
environment. -/
theorem lostNames_eq_ok {lost : List String} :
    lostNames f = .ok lost ↔ ∃ texts : List String, captureNames f = texts.map ofText ∧
      lost = texts.filter (· != "_ENV") := by
  cases names : (captureNames f).mapM Bytes.text with
  | error reason =>
    simp only [lostNames, names]
    refine ⟨nofun, ?_⟩
    rintro ⟨texts, same, -⟩
    rw [mapM_text.2 same] at names
    cases names
  | ok texts =>
    have same := mapM_text.1 names
    simp only [lostNames, names]
    show Except.ok (texts.filter (· != "_ENV")) = Except.ok lost ↔ _
    rw [Except.ok.injEq, same]
    constructor
    · rintro rfl
      exact ⟨texts, rfl, rfl⟩
    · rintro ⟨texts', same', rfl⟩
      rw [(List.map_inj_right fun s t => Bytes.ofText_inj).1 same']

/-- Nothing is lost if all captured variables are called like the environment. -/
theorem lostNames_eq_nil :
    lostNames f = .ok [] ↔ ∀ name ∈ captureNames f, name = ofText "_ENV" := by
  rw [lostNames_eq_ok]
  constructor
  · rintro ⟨texts, same, none_⟩ name mem
    rw [same] at mem
    obtain ⟨s, there, rfl⟩ := List.mem_map.1 mem
    have kept := List.filter_eq_nil_iff.1 none_.symm s there
    simp at kept
    rw [kept]
  · intro all
    refine ⟨List.replicate (captureNames f).length "_ENV", ?_, by simp⟩
    rw [List.map_replicate]
    exact List.eq_replicate_of_mem all

/-! ## Compiled texts -/

/-- Compiled code knows all captured variables by names of their own. -/
theorem compile_named {label text : Bytes} {room : Nat} {chunk : Chunk}
    (compiled : Chunk.compile label text room = .ok chunk) : chunk.AllNamed := by
  simp only [Chunk.compile] at compiled
  split at compiled
  · next c _ _ =>
    cases compiled
    exact c.named
  · cases compiled

theorem named_of_within {chunk : Chunk} (within : f.Within chunk) (all : chunk.AllNamed) :
    f.Named := by
  induction within with
  | self =>
    obtain ⟨own, -⟩ := all
    exact own
  | inner mem _ ih =>
    obtain ⟨-, inner⟩ := all
    exact ih (inner _ mem)

theorem captureNames_of_named (named : f.Named) :
    captureNames f = f.notes.captureNames.toList := by
  apply List.ext_getElem
  · simp [captureNames, named.size]
  · intro i inside inside'
    have there : i < f.notes.captureNames.size := by simpa using inside'
    simp [captureNames, there, named.plain]

/-- Of compiled code that loses nothing, a function captures one variable at most. -/
theorem captures_of_named (named : f.Named)
    (all : ∀ name ∈ captureNames f, name = ofText "_ENV") : f.captures.size ≤ 1 := by
  rw [captureNames_of_named named] at all
  have same := List.eq_replicate_of_mem all
  have distinct := named.distinct
  rw [same, List.nodup_replicate, Array.length_toList, named.size] at distinct
  exact distinct

theorem captures_strip (f : FunctionCode) : f.strip.captures = f.captures := by
  cases f
  rfl

/-- Is every captured variable of a function called like the environment? -/
def AllCalledEnv (f : FunctionCode) : Prop := ∀ name ∈ captureNames f, name = ofText "_ENV"

/-- An entry function is judged by the names of its captured variables alone: it is
refused with those names that are not the environment's, and accepted if there are
none.  What the archive is loaded as has the table of globals for the first variable
and nothing for the others, whatever the function itself captured; of a function that
stands in a text, there is one variable at most. -/
theorem gate_goes_by_names (found : entryFunction? config path source host.files = some f) :
    (∀ lost,
      (Metadata.extract config path source host).value = .error ⟨path, .capturesLocals lost⟩ ↔
      lost ≠ [] ∧ ∃ texts : List String, captureNames f = texts.map ofText ∧
        lost = texts.filter (· != "_ENV")) ∧
    ((∃ known code, (Metadata.extract config path source host).value = .ok known ∧
      known.code = some code) ↔ AllCalledEnv f) ∧
    (∀ known code, (Metadata.extract config path source host).value = .ok known →
      known.code = some code →
      ∃ c, Archive.read code.bytes = .ok c ∧
        c = (if config.stripDebugInfo then f.strip else f) ∧
        ∀ m : Machine, (m.loadChunk c).2.codeOf (m.loadChunk c).1 = some c ∧
          ∀ i < f.captures.size, (m.loadChunk c).2.captured? (m.loadChunk c).1 i =
            some (if i = 0 then .table m.heap.globals else .nil)) ∧
    (∀ label text room chunk, Chunk.compile label text room = .ok chunk → f.Within chunk →
      AllCalledEnv f → f.captures.size ≤ 1) := by
  refine ⟨fun lost => ?_, ?_, ?_, ?_⟩
  · rw [refused_iff found, lostNames_eq_ok]
  · rw [accepted_iff found, lostNames_eq_nil, AllCalledEnv]
  · intro known code accepted has
    obtain ⟨g, found', -, rfl⟩ := entry_of_extract accepted has
    obtain rfl : f = g := Option.some.inj (found.symm.trans found')
    have captures : (if config.stripDebugInfo then f.strip else f).captures = f.captures := by
      split
      · exact captures_strip f
      · rfl
    refine ⟨_, Archive.read_archive _, rfl, fun m => ⟨m.codeOf_loadChunk _, ?_⟩⟩
    intro i captured
    exact m.captured?_loadChunk _ (by rwa [captures])
  · intro label text room chunk compiled within all
    exact captures_of_named (named_of_within within (compile_named compiled)) all

/-- A script whose entry function has an environment of its own. -/
def ownEnvironment : String :=
  "local g = _G\nlocal _ENV = \x7b\x7d\ng.script = function() mes('hi') end\n"

/-- Its entry function captures a variable that is called like the environment, but is
not the table of globals. -/
theorem entryValue_ownEnvironment :
    (entryValue? .default "env.lua" ownEnvironment .empty).map (fun (m, v) =>
        ((m.codeOf v).map captureNames,
          (m.captured? v 0).map (·.same (.table m.heap.globals)))) =
      some (some [ofText "_ENV"], some false) := by
  decide +kernel

theorem gate_goes_by_names_ownEnvironment :
    ∃ m v f, entryValue? .default "env.lua" ownEnvironment .empty = some (m, v) ∧
      m.codeOf v = some f ∧ AllCalledEnv f ∧
      (∃ value, m.captured? v 0 = some value ∧ value.same (.table m.heap.globals) = false) ∧
      (∃ known code,
        (Metadata.extract .default "env.lua" ownEnvironment (.start .empty)).value = .ok known ∧
        known.code = some code) := by
  obtain ⟨⟨m, v⟩, found, told⟩ := Option.map_eq_some_iff.1 entryValue_ownEnvironment
  simp only [Prod.mk.injEq, Option.map_eq_some_iff] at told
  obtain ⟨⟨f, code, names⟩, other⟩ := told
  have called : AllCalledEnv f := by simp [AllCalledEnv, names]
  have isEntry :
      entryFunction? .default "env.lua" ownEnvironment (Host.start .empty).files = some f := by
    simp only [entryFunction?, Host.start, found]
    exact code
  exact ⟨m, v, f, found, code, called, other, (gate_goes_by_names isEntry).2.1.2 called⟩

end Extraction

end NpcDialog
