import NpcDialog.Proofs.Code.Written
import NpcDialog.Proofs.Dialog.Furnishing
import NpcDialog.Proofs.Script.Entries

/-!
# The names of lost variables

An entry function that is written in the text of a script loses the variables around it
that it refers to.  Their names can be read off the text.

* `Extraction.lostNames_of_fits` — the lost names of a function are those that the tree
  tells of the place where it is written.
* `Extraction.captured_names_as_written` — what an entry function is refused with.
-/

namespace NpcDialog

open Lua
open Bytes (ofText)

namespace Extraction

variable {config : Config} {path source : String} {host : Host} {f : FunctionCode}
  {label : Bytes} {room : Nat} {chunk : Chunk} {s : Lua.Site}

/-- The names that are told of as lost are those that the tree tells. -/
theorem lostNames_of_fits (named : f.Named) (fits : Fits f s) {l : List String} :
    lostNames f = .ok l ↔ l.map ofText = s.capturedNames := by
  obtain ⟨told, -, -⟩ := fits
  have env : envName.bytes = ofText "_ENV" := by decide +kernel
  have others : ∀ texts : List String, (texts.map ofText).filter (· != envName.bytes) =
      (texts.filter (· != "_ENV")).map ofText := by
    intro texts
    rw [List.filter_map, env]
    refine congrArg (List.map ofText) (List.filter_congr fun t _ => ?_)
    have iff : ofText t = ofText "_ENV" ↔ t = "_ENV" := ⟨Bytes.ofText_inj, congrArg ofText⟩
    rw [Function.comp_apply, Bool.eq_iff_iff, bne_iff_ne, bne_iff_ne, ne_eq, ne_eq, iff]
  rw [lostNames_eq_ok, ← told, FunctionCode.toldNames, ← captureNames_of_named named]
  constructor
  · rintro ⟨texts, same, rfl⟩
    rw [same, others]
  · intro same
    have known : ∀ n ∈ captureNames f, ∃ t, ofText t = n := by
      intro n mem
      by_cases isEnv : n = envName.bytes
      · exact ⟨"_ENV", (isEnv.trans env).symm⟩
      · have kept : n ∈ l.map ofText := same ▸ List.mem_filter.2 ⟨mem, by simpa using isEnv⟩
        obtain ⟨t, -, is⟩ := List.mem_map.1 kept
        exact ⟨t, is⟩
    have all : captureNames f = ((captureNames f).attach.map fun n =>
      (known n.1 n.2).choose).map ofText := by
      rw [List.map_map]
      refine (List.attach_map_subtype_val _).symm.trans (List.map_congr_left fun n _ => ?_)
      exact (known n.1 n.2).choose_spec.symm
    refine ⟨_, all, ?_⟩
    rw [all, others] at same
    exact (List.map_inj_right fun s t => Bytes.ofText_inj).1 same

/-- An entry function that is written in the text of a script is judged by what the
text says.  It is refused with the names of the variables around it that it, or a
function inside, refers to: each once, in the order of the text, without names for
constants and without any that is called like the environment; there is at least one
of them.  It is accepted if there are none. -/
theorem captured_names_as_written (found : entryFunction? config path source host.files = some f)
    (compiled : Chunk.compile label (ofText source) room = .ok chunk) (within : f.Within chunk) :
    (∃ s, StandsAt chunk (topSite (Tree.ofTokens (Token.scan (ofText source)) room)) f s) ∧
    ∀ s, StandsAt chunk (topSite (Tree.ofTokens (Token.scan (ofText source)) room)) f s →
      (∀ lost,
        (Metadata.extract config path source host).value = .error ⟨path, .capturesLocals lost⟩ ↔
        lost ≠ [] ∧ lost.map ofText = s.capturedNames) ∧
      ((∃ known code, (Metadata.extract config path source host).value = .ok known ∧
        known.code = some code) ↔ s.capturedNames = []) := by
  have fits := Chunk.compile_fits compiled
  have named := named_of_within within (compile_named compiled)
  refine ⟨fits.exists_site within, fun s stands => ?_⟩
  have written := fits.of_standsAt stands
  refine ⟨fun lost => ?_, ?_⟩
  · rw [refused_iff found, lostNames_of_fits named written]
  · rw [accepted_iff found, lostNames_of_fits named written, List.map_nil, eq_comm]

/-- A script whose entry function refers to variables around it, one of them from a
function inside. -/
def surrounded : String :=
  "local a, b, c = 1, 2, 3\nlocal k <const> = 4\nfunction script(a)\n" ++
    "  mes(c + k)\n  return function() return a, b, c end\nend\n"

/-- Its entry function is the first one in the text. -/
theorem entry_surrounded :
    ((entryFunction? .default "names.lua" surrounded .empty).any fun f =>
      (Chunk.compile (chunkName "names.lua") (ofText surrounded) Machine.compileRoom).toOption.any
        fun chunk => (chunk.children[0]?).any fun g => g.same f) = true := by
  decide +kernel

theorem site_surrounded :
    ((topSite (Tree.ofTokens (Token.scan (ofText surrounded)) Machine.compileRoom)).inner[0]?).map
      Lua.Site.capturedNames = some [ofText "c", ofText "b"] := by
  decide +kernel

theorem captured_names_as_written_surrounded :
    ∃ f chunk s,
      entryFunction? .default "names.lua" surrounded (Host.start .empty).files = some f ∧
      Chunk.compile (chunkName "names.lua") (ofText surrounded) Machine.compileRoom = .ok chunk ∧
      f.Within chunk ∧
      StandsAt chunk (topSite (Tree.ofTokens (Token.scan (ofText surrounded)) Machine.compileRoom))
        f s ∧
      s.capturedNames = [ofText "c", ofText "b"] ∧
      (Metadata.extract .default "names.lua" surrounded (.start .empty)).value =
        .error ⟨"names.lua", .capturesLocals ["c", "b"]⟩ := by
  obtain ⟨f, found, known⟩ := (Option.any_eq_true _ _).1 entry_surrounded
  obtain ⟨chunk, compiles, known⟩ := (Option.any_eq_true _ _).1 known
  obtain ⟨g, child, same⟩ := (Option.any_eq_true _ _).1 known
  obtain ⟨s, site, names⟩ := Option.map_eq_some_iff.1 site_surrounded
  obtain rfl := FunctionCode.eq_of_same g f same
  have compiled :
      Chunk.compile (chunkName "names.lua") (ofText surrounded) Machine.compileRoom = .ok chunk := by
    cases result : Chunk.compile (chunkName "names.lua") (ofText surrounded)
      Machine.compileRoom with
    | error e => rw [result] at compiles; cases compiles
    | ok c => rw [result] at compiles; cases compiles; rfl
  have isEntry :
      entryFunction? .default "names.lua" surrounded (Host.start .empty).files = some g := found
  have within : g.Within chunk := .inner (List.mem_of_getElem? child) .self
  have stands := StandsAt.inner .whole child site
  exact ⟨g, chunk, s, isEntry, compiled, within, stands, names,
    (((captured_names_as_written isEntry compiled within).2 s stands).1 ["c", "b"]).2
      ⟨nofun, by rw [names]; rfl⟩⟩

end Extraction
end NpcDialog
