import NpcDialog.Toml.Fault

/-!
# TOML values

What a TOML text says: a table of named entries.  Tables remember how they came
about, because a table that was defined by its header cannot be defined again.

* `Value` — what stands behind an equals sign.
* `Key` — a name with its place.
* `Table`, `Entry` — the tables of a document.
-/

namespace NpcDialog.Toml

/-- What stands behind an equals sign. -/
inductive Value where
  /-- A text. -/
  | string (s : String)
  /-- An integer. -/
  | integer (n : Int)
  /-- A float. -/
  | float (x : Float)
  /-- A truth value. -/
  | boolean (b : Bool)
  /-- A date, a time, or both, as it is spelt. -/
  | datetime (text : Bytes)
  /-- A list of values. -/
  | array (items : List Value)
  /-- A table in braces; `dotted` tells that it only came about as a part of a
  key. -/
  | table (fields : List (String × Value)) (dotted : Bool)

/-- The name of a value's type. -/
def Value.typeName : Value → String
  | .string _ => "string"
  | .integer _ => "integer"
  | .float _ => "float"
  | .boolean _ => "boolean"
  | .datetime _ => "datetime"
  | .array _ => "array"
  | .table _ _ => "inline table"

/-- A name in a document. -/
structure Key where
  /-- The name. -/
  name : String
  /-- Where it stands. -/
  span : Span
  deriving DecidableEq

/-- What a name stands for. -/
inductive Entry (τ : Type) where
  /-- A value. -/
  | value (v : Value) (span : Span)
  /-- A table. -/
  | table (t : τ)
  /-- A list of tables. -/
  | tables (ts : List τ)

/-- A table of a document. -/
structure Table where
  /-- The entries, in the order in which they came about. -/
  fields : List (Key × Entry Table)
  /-- Did it only come about on the way to another table? -/
  isImplicit : Bool
  /-- Did it come about as a part of a key with dots? -/
  isDotted : Bool
  /-- Where it stands, if it has a place of its own. -/
  span : Option Span

namespace Table

/-- A table without entries. -/
def empty : Table := ⟨[], false, false, none⟩

/-- A table that comes about on the way to another one. -/
def passed (dotted : Bool) : Table := ⟨[], true, dotted, none⟩

/-- The entry of a name. -/
def find? (t : Table) (name : String) : Option (Entry Table) :=
  (t.fields.find? fun f => f.1.name == name).map Prod.snd

/-- The table with another entry of a name, in the old place or at the end. -/
def set (t : Table) (key : Key) (e : Entry Table) : Table :=
  if (t.find? key.name).isSome then
    { t with fields := t.fields.map fun f => if f.1.name == key.name then (f.1, e) else f }
  else { t with fields := t.fields ++ [(key, e)] }

/-- The table without a name. -/
def erase (t : Table) (name : String) : Table :=
  { t with fields := t.fields.filter fun f => f.1.name != name }

end Table

/-- Where an entry stands, if it has a place of its own. -/
def Entry.span? : Entry Table → Option Span
  | .value _ s => some s
  | .table t => t.span
  | .tables ts =>
    match ts.head?.bind Table.span, ts.getLast?.bind Table.span with
    | some first, some last => some ⟨first.start, last.stop⟩
    | _, _ => none

end NpcDialog.Toml
