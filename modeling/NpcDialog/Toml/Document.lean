import NpcDialog.Toml.Number

/-!
# TOML documents

A document is a list of lines: names with values, and headers that say to which
table the following names belong.  While it is read, the table in hand is kept
apart from the others and takes its place among them at the next header.

* `Parser.value` — any value.
* `Parser.key` — a name, possibly with dots.
* `Draft` — what was read so far, with `Draft.define`, `Draft.beginTable`,
  `Draft.beginArray`.
* `Table.parse` — the table of a whole text.
-/

namespace NpcDialog.Toml

open Bytes (ofText)

/-! ## What can be wrong with names -/

/-- The names of a path with dots in between. -/
def dotted (path : List Key) : String := ".".intercalate (path.map Key.name)

/-- The complaint about a name that was defined before. -/
def duplicate (name : String) : Complaint := .ofCause s!"duplicate key \x60{name}\x60"

/-- The complaint about a name that was defined before, in a table. -/
def duplicateIn (name : String) (table : List Key) : Complaint :=
  if table.isEmpty then .ofCause s!"duplicate key \x60{name}\x60 in document root"
  else .ofCause s!"duplicate key \x60{name}\x60 in table \x60{dotted table}\x60"

/-- The complaint about a path that leads through something that is no
table. -/
def notTable (path : List Key) (typeName : String) : Complaint :=
  .ofCause s!"dotted key \x60{dotted path}\x60 attempted to extend non-table type ({typeName})"

/-- A byte of a name without quotes. -/
def isBareByte (c : UInt8) : Bool := Bytes.isAlnum c || c == 45 || c == 95

/-- A name as it is written in a key. -/
def keyText (name : String) : String :=
  let b := ofText name
  if b.size != 0 && b.toList.all isBareByte then name
  else if (b.indexOf? 34 0).isSome && (b.indexOf? 39 0).isNone then "'" ++ name ++ "'"
  else "\"" ++ name ++ "\""

/-! ## Values -/

/-- The number of tables and lists that can be inside each other. -/
def nestingBound : Nat := 80

/-- What is said of a text that goes beyond it. -/
def nestingText : String := "recursion limit exceeded"

/-- The fields of a table in braces with one more.  The first argument is the
path in front of the name, the second what was walked of it. -/
def defineInline (name : String) (v : Value) :
    List Key → List Key → List (String × Value) → Bool → Except Complaint (List (String × Value))
  | [], seen, fields, isDotted =>
    if isDotted == seen.isEmpty then .error (duplicate name)
    else if (fields.lookup name).isSome then .error (duplicate name)
    else .ok (fields ++ [(name, v)])
  | key :: rest, seen, fields, _ =>
    match fields.lookup key.name with
    | none => do
      let inner ← defineInline name v rest (seen ++ [key]) [] true
      return fields ++ [(key.name, .table inner true)]
    | some (.table inner true) => do
      let inner ← defineInline name v rest (seen ++ [key]) inner true
      return fields.map fun f => if f.1 == key.name then (f.1, .table inner true) else f
    | some (.table _ false) => .error (duplicate key.name)
    | some other => .error (notTable (seen ++ [key]) other.typeName)

/-- The fields of a table in braces. -/
def inlineFields (pairs : List (List Key × Key × Value)) : Except Complaint (List (String × Value)) :=
  pairs.foldlM (fun fields (path, key, v) => defineInline key.name v path [] fields false) []

namespace Parser

/-- A name. -/
def simpleKey : Parser Key := do
  let text : Parser Bytes := do
    match ← peek? with
    | none => refuse
    | some 34 => basicString
    | some 39 => literalString
    | some _ => takeSome isBareByte
  let (name, span) ← spanned text
  return ⟨name.toText, span⟩

/-- Names with dots in between. -/
def key : Parser (List Key) :=
  judged (labelled "key" (separated (do
      let _ ← ws
      let k ← simpleKey
      let _ ← ws
      return k) (byte 46)))
    fun path => if nestingBound ≤ path.length then .error (.ofCause nestingText) else .ok path

/-- A path without its last name, and the last name. -/
def splitPath (path : List Key) : List Key × Key :=
  (path.dropLast, path.getLast?.getD ⟨"", ⟨0, 0⟩⟩)

/-- The sign between a name and its value. -/
def equals : Parser Unit :=
  expecting "\x60=\x60" (expecting "\x60.\x60" (ignored (byte 61)))

/-- Notes that a string could stand where a parser fails. -/
def likeString (p : Parser Value) : Parser Value :=
  expecting "\x60'\x60" (expecting "\x60\"\x60" (labelled "string" p))

/-- A word that stands for a value. -/
def word (spelling : String) (v : Value) : Parser Value := do
  literal (ofText spelling)
  return v

/-- A list, given what its items are. -/
def arrayOf (item : Parser Value) : Parser Value := do
  let _ ← byte 91
  let items ← cut do
    if (← peek?) == some 93 then return []
    let items ← separatedOrNone (do
      wsCommentNewline
      let v ← item
      wsCommentNewline
      return v) (byte 44)
    if !items.isEmpty then
      let _ ← optional (byte 44)
    wsCommentNewline
    return items
  let _ ← expecting "\x60]\x60" (labelled "array" (cut (byte 93)))
  return .array items

/-- A table in braces, given what its values are. -/
def inlineTableOf (item : Parser Value) : Parser Value := do
  let _ ← byte 123
  let pair : Parser (List Key × Key × Value) := do
    let (path, last) := splitPath (← key)
    cut do
      equals
      let _ ← ws
      let v ← item
      let _ ← ws
      return (path, last, v)
  let fields ← cut (judged (do
    let pairs ← separatedOrNone pair (byte 44)
    let _ ← ws
    return pairs) inlineFields)
  let _ ← expecting "\x60\x7d\x60" (labelled "inline table" (cut (byte 125)))
  return .table fields false

/-- Any value, with so much room for values inside it. -/
def value (room : Nat) : Parser Value := do
  match (← peek?).map fun c => Char.ofNat c.toNat with
  | none => refuse
  | some '"' | some '\x27' => return .string (← string).toText
  | some '[' =>
    match room with
    | 0 => refuseFinally nestingText
    | n + 1 => arrayOf (value n)
  | some '\x7b' =>
    match room with
    | 0 => refuseFinally nestingText
    | n + 1 => inlineTableOf (value n)
  | some '_' => expecting "leading digit" integer
  | some '.' => expecting "leading digit" float
  | some 't' => likeString (cut (word "true" (.boolean true)))
  | some 'f' => likeString (cut (word "false" (.boolean false)))
  | some 'i' => likeString (do return .float (← infinity))
  | some 'n' => likeString (do return .float (← notNumber))
  | some c =>
    if c == '+' || c == '-' || c.isDigit then orElse dateTime (orElse float integer)
    else likeString refuse

/-- The end of a line that says something. -/
def endOfLine : Parser Unit := expecting "\x60#\x60" (expecting "newline" lineTrailing)

/-- A name with its value. -/
def keyval : Parser (List Key × Key × Value × Span) := do
  let (path, last) := splitPath (← key)
  cut do
    equals
    let _ ← ws
    let (v, span) ← spanned (value (nestingBound - 1))
    endOfLine
    return (path, last, v, span)

end Parser

/-! ## The tables -/

/-- Changes the table that a path leads to, with an answer.  Tables on the way
are made if they are missing; `isDotted` tells that the path is part of a name
and not of a header. -/
def Table.descend {α : Type} (isDotted : Bool) (f : Table → Except Complaint (α × Table)) :
    List Key → List Key → Table → Except Complaint (α × Table)
  | [], _, t => f t
  | key :: rest, seen, t =>
    match t.find? key.name with
    | none => do
      let (a, child) ← descend isDotted f rest (seen ++ [key]) (Table.passed isDotted)
      return (a, t.set key (.table child))
    | some (.value v _) => .error (notTable (seen ++ [key]) v.typeName)
    | some (.tables ts) => do
      let (a, last) ← descend isDotted f rest (seen ++ [key]) (ts.getLast?.getD Table.empty)
      return (a, t.set key (.tables (ts.dropLast ++ [last])))
    | some (.table child) =>
      if isDotted && !child.isImplicit then .error (duplicate key.name)
      else do
        let (a, child) ← descend isDotted f rest (seen ++ [key]) child
        return (a, t.set key (.table child))

/-- What was read so far. -/
structure Draft where
  /-- All tables but the one in hand. -/
  root : Table
  /-- The table in hand. -/
  current : Table
  /-- Where it belongs. -/
  path : List Key
  /-- Is it one of a list of tables? -/
  isArray : Bool

namespace Draft

/-- Nothing was read. -/
def start : Draft := ⟨Table.empty, Table.empty, [], false⟩

/-- Changes the table in front of the last name of a path, which is refused if
it stands for something else already. -/
def atParent {α : Type} (root : Table) (header : List Key)
    (f : Key → Complaint → Table → Except Complaint (α × Table)) : Except Complaint (α × Table) :=
  let (path, last) := Parser.splitPath header
  Table.descend false (f last (duplicateIn (keyText last.name) path)) path [] root

/-- All tables, with the one in hand in its place. -/
def settle (d : Draft) : Except Complaint Table :=
  if d.path.isEmpty then .ok d.current
  else do
    let (_, root) ← atParent d.root d.path fun last refused t =>
      match t.find? last.name with
      | none => .ok ((), t.set last (if d.isArray then .tables [d.current] else .table d.current))
      | some (.tables ts) =>
        if d.isArray then .ok ((), t.set last (.tables (ts ++ [d.current]))) else .error refused
      | some (.table old) =>
        if old.isImplicit && !d.isArray then .ok ((), t.set last (.table d.current))
        else .error refused
      | some (.value _ _) => .error refused
    return root

/-- Defines a name in the table in hand. -/
def define (d : Draft) (path : List Key) (last : Key) (v : Value) (span : Span) :
    Except Complaint Draft := do
  let whole := d.current.span.map fun s => (⟨s.start, span.stop⟩ : Span)
  let (_, current) ← Table.descend true (fun t =>
    if t.isDotted == path.isEmpty then .error (duplicate last.name)
    else
      match t.find? last.name with
      | none => .ok ((), t.set last (.value v span))
      | some _ => .error (duplicateIn last.name d.path)) path [] { d.current with span := whole }
  return { d with current }

/-- Takes the table of a header in hand. -/
def beginTable (d : Draft) (header : List Key) (span : Span) : Except Complaint Draft := do
  let (old, root) ← atParent (← d.settle) header fun last refused t =>
    match t.find? last.name with
    | none => .ok (Table.empty, t)
    | some (.table old) =>
      if old.isImplicit && !old.isDotted then .ok (old, t.erase last.name) else .error refused
    | some _ => .error refused
  return ⟨root, { old with isImplicit := false, isDotted := false, span := some span }, header, false⟩

/-- Takes a new table of a list of tables in hand. -/
def beginArray (d : Draft) (header : List Key) (span : Span) : Except Complaint Draft := do
  let (_, root) ← atParent (← d.settle) header fun last refused t =>
    match t.find? last.name with
    | none => .ok ((), t.set last (.tables []))
    | some (.tables _) => .ok ((), t)
    | some _ => .error refused
  return ⟨root, { Table.empty with span := some span }, header, true⟩

end Draft

/-! ## Documents -/

namespace Parser

/-- A header between two marks. -/
def header (opening closing : String) : Parser (List Key × Span) := do
  let h ← spanned do
    literal (ofText opening)
    let path ← cut key
    expecting s!"\x60{closing}\x60" (expecting "\x60.\x60" (cut (literal (ofText closing))))
    return path
  cut endOfLine
  return h

/-- A header, and the draft behind it. -/
def table (d : Draft) : Parser Draft :=
  labelled "table header" do
    match ← peek?, ← peekSecond? with
    | some _, some 91 => judged (header "[[" "]]") fun (path, span) => d.beginArray path span
    | some _, some _ => judged (header "[" "]") fun (path, span) => d.beginTable path span
    | _, _ => refuse

/-- Lines, `n` at most, and the draft behind them. -/
def lines : Nat → Draft → Parser Draft
  | 0, d => pure d
  | n + 1, d => do
    match ← peek? with
    | none => return d
    | some 35 => do
      cut do
        comment
        lineEnding
      let _ ← ws
      lines n d
    | some 91 => do
      let d ← cut (table d)
      let _ ← ws
      lines n d
    | some 10 | some 13 => do
      match ← optional newline with
      | none => return d
      | some _ => do
        let _ ← ws
        lines n d
    | some _ => do
      let d ← cut (judged keyval fun (path, last, v, span) => d.define path last v span)
      let _ ← ws
      lines n d

/-- A whole text. -/
def document : Parser Table := fun b i =>
  (do
    let _ ← optional (literal (Bytes.ofList [0xEF, 0xBB, 0xBF]))
    let _ ← ws
    judged (do
      let d ← lines (b.size + 1) Draft.start
      finish
      return d) Draft.settle : Parser Table) b i

end Parser

/-- Is the byte one inside a character? -/
def isContinuation (c : UInt8) : Bool := 128 ≤ c && c < 192

/-- The character at an index, or the one that the index is inside of.  The
first argument bounds the steps. -/
def charStart (b : Bytes) : Nat → Nat
  | 0 => 0
  | n + 1 => if isContinuation (b.byteAt (n + 1)) then charStart b n else n + 1

/-- The span of the character at an index; it is empty at the end of the
text. -/
def charSpan (b : Bytes) (i : Nat) : Span :=
  let start := charStart b i
  if start < b.size then
    ⟨start, start + 1 + Parser.countWhile isContinuation b (b.size - start - 1) (start + 1)⟩
  else ⟨start, start⟩

/-- The table of a text. -/
def Table.parse (source : String) : Except Fault Table :=
  let b := ofText source
  match Parser.document b 0 with
  | .done t _ => .ok t
  | .fail _ pos why => .error ⟨charSpan b pos, why.text⟩

end NpcDialog.Toml
