import NpcDialog.Dialog.Config
import NpcDialog.Script.Extraction
import NpcDialog.Toml.Decimal
import NpcDialog.Toml.Document

/-!
# Configuration files

The settings as a TOML text.  Names that are no settings are passed over; a
setting whose value is of the wrong type is a fault.

* `Config.ofTable` — the settings of a table.
* `Config.ofText` — the settings of a text.
* `Config.load` — the settings of a file.
-/

namespace NpcDialog

open Toml (Span)

/-- Why there are no settings. -/
inductive ConfigFault where
  /-- There is no such file. -/
  | notFound (path : String)
  /-- The file cannot be read. -/
  | unreadable (f : ReadFault)
  /-- The text is wrong, as shown. -/
  | parse (shown : String)
  deriving DecidableEq

/-- The message. -/
def ConfigFault.text : ConfigFault → String
  | .notFound path => s!"Config file not found: {path}"
  | .unreadable f => s!"IO error reading config: {f.text}"
  | .parse shown => s!"Failed to parse config: {shown}"

/-- What the message is about, if it is about something else. -/
def ConfigFault.cause? : ConfigFault → Option String
  | .notFound _ => none
  | .unreadable f => some f.text
  | .parse shown => some shown

/-- The characters that are shown by their number. -/
def hiddenRanges : List (Nat × Nat) :=
  [(0x00, 0x1F), (0x7F, 0x9F), (0xAD, 0xAD), (0x300, 0x36F), (0x200B, 0x200F), (0x2028, 0x202E),
    (0x2060, 0x206F), (0xE000, 0xF8FF), (0xFEFF, 0xFEFF), (0xFFF9, 0xFFFB)]

/-- A character as it is shown between double quotes. -/
def shownChar (c : Char) : String :=
  match c with
  | '\x00' => "\\0"
  | '\t' => "\\t"
  | '\n' => "\\n"
  | '\r' => "\\r"
  | '"' => "\\\""
  | '\\' => "\\\\"
  | c =>
    if hiddenRanges.any fun r => r.1 ≤ c.toNat && c.toNat ≤ r.2 then
      "\\u\x7b" ++ String.ofList (Nat.toDigits 16 c.toNat) ++ "\x7d"
    else c.toString

/-- A text as it is shown between double quotes. -/
def shownText (s : String) : String :=
  "\"" ++ String.join (s.toList.map shownChar) ++ "\""

/-- What a value is, in the words of a message about its type. -/
def described : Toml.Value → String
  | .string s => s!"string {shownText s}"
  | .integer n => s!"integer \x60{n}\x60"
  | .float x => s!"floating point \x60{Toml.Decimal.text x}\x60"
  | .boolean b => s!"boolean \x60{b}\x60"
  | .datetime _ => "map"
  | .array _ => "sequence"
  | .table _ _ => "map"

/-- What an entry is, in the words of a message about its type. -/
def describedEntry : Toml.Entry Toml.Table → String
  | .value v _ => described v
  | .table _ => "map"
  | .tables _ => "sequence"

namespace Config

/-- The words for a value of the wrong type. -/
def wrongType (e : Toml.Entry Toml.Table) (expected : String) : String :=
  s!"invalid type: {describedEntry e}, expected {expected}"

/-- A truth value. -/
def readFlag (e : Toml.Entry Toml.Table) : Except String Bool :=
  match e with
  | .value (.boolean b) _ => .ok b
  | e => .error (wrongType e "a boolean")

/-- A size in bytes. -/
def readSize (e : Toml.Entry Toml.Table) : Except String Nat :=
  match e with
  | .value (.integer n) _ =>
    if 0 ≤ n then .ok n.toNat
    else .error s!"invalid value: integer \x60{n}\x60, expected usize"
  | e => .error (wrongType e "usize")

/-- The settings with one more entry of a table. -/
def withEntry (c : Config) (key : Toml.Key) (e : Toml.Entry Toml.Table) : Except Toml.Fault Config :=
  let span : Span := e.span?.getD key.span
  let read : Except String Config :=
    match key.name with
    | "strip_debug_info" => do return { c with stripDebugInfo := ← readFlag e }
    | "memory_limit" => do return { c with memoryLimit := some (← readSize e) }
    | _ => .ok c
  match read with
  | .ok c => .ok c
  | .error message => .error ⟨span, message⟩

/-- The settings of a table. -/
def ofTable (t : Toml.Table) : Except Toml.Fault Config :=
  t.fields.foldlM (fun c (key, e) => c.withEntry key e) Config.default

/-- The settings of a text. -/
def ofText (s : String) : Except ConfigFault Config :=
  match (Toml.Table.parse s).bind ofTable with
  | .ok c => .ok c
  | .error f => .error (.parse (f.text s))

/-- The settings of a file. -/
def load (path : String) : Action (Except ConfigFault Config) := do
  let files ← Action.files
  let found := !(path.any (· == '\x00')) && (files.find (Bytes.ofText path)).isOk
  if !found then return .error (.notFound path)
  else
    match files.readText path with
    | .error f => return .error (.unreadable f)
    | .ok s =>
      match ofText s with
      | .error f => return .error f
      | .ok c => do
        Action.log (.configLoaded path)
        return .ok c

end Config

end NpcDialog
