import NpcDialog.Lua.Library.Operations

/-!
# Functions of the system

The functions of the table `os`.  The clock stands still at the beginning of the
epoch, there is one time zone, the environment is empty and no other program
can be run.

* `System.Moment` — a point in time by the calendar.
* `System.date`, `System.time` — between moments and seconds.
* `System.remove`, `System.rename` — files.
-/

namespace NpcDialog.Lua.System

open Bytes (ofText)

/-- A point in time by the calendar. -/
structure Moment where
  /-- The year. -/
  year : Int
  /-- The month, from one. -/
  month : Nat
  /-- The day of the month, from one. -/
  day : Nat
  /-- The hour. -/
  hour : Nat
  /-- The minute. -/
  minute : Nat
  /-- The second. -/
  second : Nat
  /-- The day of the week, Sunday being zero. -/
  weekday : Nat

/-- The days from the epoch to a date, where months and days may lie outside
their ranges. -/
def daysTo (year month day : Int) : Int :=
  let m := (month - 1) % 12
  let y := year + (month - 1) / 12
  let y := if m < 2 then y - 1 else y
  let era := y / 400
  let yearOfEra := y - era * 400
  let shifted := (m + 10) % 12
  let dayOfYear := (153 * shifted + 2) / 5
  era * 146097 + yearOfEra * 365 + yearOfEra / 4 - yearOfEra / 100 + dayOfYear - 719468 + (day - 1)

/-- The moment so many seconds after the epoch. -/
def Moment.ofSeconds (t : Int) : Moment :=
  let days := t / 86400
  let rest := (t % 86400).toNat
  let z := days + 719468
  let era := z / 146097
  let dayOfEra := z - era * 146097
  let yearOfEra := (dayOfEra - dayOfEra / 1460 + dayOfEra / 36524 - dayOfEra / 146096) / 365
  let dayOfYear := dayOfEra - (365 * yearOfEra + yearOfEra / 4 - yearOfEra / 100)
  let shifted := (5 * dayOfYear + 2) / 153
  let day := dayOfYear - (153 * shifted + 2) / 5 + 1
  let month := if shifted < 10 then shifted + 3 else shifted - 9
  let year := yearOfEra + era * 400 + (if month ≤ 2 then 1 else 0)
  ⟨year, month.toNat, day.toNat, rest / 3600, rest / 60 % 60, rest % 60, ((days + 4) % 7).toNat⟩

/-- The day of the year, from one. -/
def Moment.dayOfYear (m : Moment) : Nat := (daysTo m.year m.month m.day - daysTo m.year 1 1 + 1).toNat

/-- The names of the days. -/
def dayNames : List String :=
  ["Sunday", "Monday", "Tuesday", "Wednesday", "Thursday", "Friday", "Saturday"]

/-- The names of the months. -/
def monthNames : List String :=
  ["January", "February", "March", "April", "May", "June", "July", "August", "September", "October",
    "November", "December"]

/-- A number with zeros in front. -/
def padded (n width : Nat) : String :=
  let s := toString n
  String.ofList (List.replicate (width - s.length) '0') ++ s

/-- The text of one letter of a format, if it is one. -/
def Moment.part (m : Moment) (letter : Char) : Option String :=
  let day := dayNames.getD m.weekday ""
  let month := monthNames.getD (m.month - 1) ""
  let clock := padded m.hour 2 ++ ":" ++ padded m.minute 2 ++ ":" ++ padded m.second 2
  match letter with
  | 'a' => some (String.ofList (day.toList.take 3))
  | 'A' => some day
  | 'b' => some (String.ofList (month.toList.take 3))
  | 'B' => some month
  | 'c' =>
    let dayText := if m.day < 10 then " " ++ toString m.day else toString m.day
    some (String.ofList (day.toList.take 3) ++ " " ++ String.ofList (month.toList.take 3) ++ " " ++ dayText
      ++ " " ++ clock ++ " " ++ toString m.year)
  | 'd' => some (padded m.day 2)
  | 'H' => some (padded m.hour 2)
  | 'I' => some (padded (if m.hour % 12 == 0 then 12 else m.hour % 12) 2)
  | 'j' => some (padded m.dayOfYear 3)
  | 'm' => some (padded m.month 2)
  | 'M' => some (padded m.minute 2)
  | 'p' => some (if m.hour < 12 then "AM" else "PM")
  | 'S' => some (padded m.second 2)
  | 'w' => some (toString m.weekday)
  | 'x' | 'D' => some (padded m.month 2 ++ "/" ++ padded m.day 2 ++ "/" ++ padded (m.year % 100).toNat 2)
  | 'X' | 'T' => some clock
  | 'y' => some (padded (m.year % 100).toNat 2)
  | 'Y' => some (toString m.year)
  | 'Z' => some "UTC"
  | 'F' => some (toString m.year ++ "-" ++ padded m.month 2 ++ "-" ++ padded m.day 2)
  | 'n' => some "\n"
  | 't' => some "\t"
  | '%' => some "%"
  | _ => none

/-- The text of a format, from index `i` on; the first argument bounds the
bytes. -/
def formatFrom (m : Moment) (s : Bytes) : Nat → Nat → Bytes → Except Bytes Bytes
  | 0, _, acc => .ok acc
  | n + 1, i, acc =>
    if s.size ≤ i then .ok acc
    else if s.byteAt i != 37 then formatFrom m s n (i + 1) (acc.push (s.byteAt i))
    else
      match m.part (Char.ofNat (s.byteAt (i + 1)).toNat) with
      | some text => formatFrom m s n (i + 2) (acc ++ ofText text)
      | none => .error (s.slice i (min s.size (i + 2)))

/-- A moment as text or as a table. -/
def date (a : Args) : Proc Ending := do
  let s ← a.textOr 1 (ofText "%c")
  let t := (← a.integerOr 2 0).toInt
  let s := if s.byteAt 0 == 33 then s.slice 1 s.size else s
  let m := Moment.ofSeconds t
  if s.beginsWith (ofText "*t") then
    let fields : List (String × Value) :=
      [("year", .int (Int64.ofInt m.year)), ("month", .ofNat m.month), ("day", .ofNat m.day),
        ("hour", .ofNat m.hour), ("min", .ofNat m.minute), ("sec", .ofNat m.second),
        ("yday", .ofNat m.dayOfYear), ("wday", .ofNat (m.weekday + 1)), ("isdst", .bool false)]
    let id ← Proc.alter fun h =>
      let (id, h) := h.newTable (Table.withRoom 0 9)
      (id, fields.foldl (fun h (k, v) => h.rawSetStr id (ofText k) v) h)
    Ending.value (.table id)
  else
    match formatFrom m s (s.size + 1) 0 ByteArray.empty with
    | .ok text => Proc.returnString text
    | .error part => Proc.fail (.argument 1 (ofText "invalid conversion specifier " ++ quoted part))

/-- A field of a table that tells a moment. -/
def momentField (t : Value) (name : String) (other : Option Int) : Proc Int := do
  let v ← Proc.index t (.ofText name)
  match v.toInteger? with
  | some n => return n.toInt
  | none =>
    if !v.isNil then Proc.failWith s!"field '{name}' is not an integer"
    else
      match other with
      | some n => return n
      | none => Proc.failWith s!"field '{name}' missing in date table"

/-- The seconds from the epoch to a moment. -/
def time (a : Args) : Proc Ending := do
  if a.isAbsent 1 then Ending.value (.int 0)
  else
    let t := Value.table (← a.table 1)
    let year ← momentField t "year" none
    let month ← momentField t "month" none
    let day ← momentField t "day" none
    let hour ← momentField t "hour" (some 12)
    let minute ← momentField t "min" (some 0)
    let second ← momentField t "sec" (some 0)
    Ending.value (.int (Int64.ofInt (daysTo year month day * 86400 + hour * 3600 + minute * 60 + second)))

/-- The time that was spent. -/
def clock (_ : Args) : Proc Ending := Ending.value (.float 0.0)

/-- The seconds between two moments. -/
def difference (a : Args) : Proc Ending := do
  let later ← a.integer 1
  let earlier ← a.integer 2
  Ending.value (.float (later.toFloat - earlier.toFloat))

/-- A variable of the environment; there are none. -/
def environment (a : Args) : Proc Ending := do
  discard (a.text 1)
  Ending.value .nil

/-- The results of an operation on files. -/
def outcome (path : Bytes) (r : Except FileFault Unit) : Proc Ending :=
  match r with
  | .ok _ => Ending.value (.bool true)
  | .error e =>
    Ending.values #[.nil, .str (path ++ ofText ": " ++ ofText e.text), .ofNat e.code]

/-- Changes the files if that can be done. -/
def changeFiles (f : FileTree → Except FileFault FileTree) : Proc (Except FileFault Unit) :=
  Proc.alter fun h =>
    match f h.files with
    | .ok files => (.ok (), { h with files })
    | .error e => (.error e, h)

/-- Removes a file. -/
def remove (a : Args) : Proc Ending := do
  let path := (← a.text 1).beforeZero
  outcome path (← changeFiles fun t => t.remove path)

/-- Gives a file another name. -/
def rename (a : Args) : Proc Ending := do
  let path := (← a.text 1).beforeZero
  let target := (← a.text 2).beforeZero
  outcome path (← changeFiles fun t => do
    let contents ← t.read path
    (← t.remove path).write target contents)

/-- A name that no file has. -/
def temporaryName (_ : Args) : Proc Ending := Ending.value (.ofText "/tmp/lua_000000")

/-- Has a command run by the system, which finds no such program. -/
def execute (a : Args) : Proc Ending := do
  if a.isAbsent 1 then Ending.value (.bool false)
  else
    Proc.process (.runs (← a.text 1).beforeZero)
    Ending.values #[.nil, .ofText "exit", .int 127]

/-- Ends the process.  Of its exit code the system keeps eight bits. -/
def exit (a : Args) : Proc Ending := do
  let code ← match a.get 1 with
    | .bool b => pure (if b then (0 : Int64) else 1)
    | _ => a.integerOr 1 0
  Proc.process (.exits (code.toInt % 256).toNat)
  Proc.fail .exhausted

/-- The locale, of which there is one. -/
def locale (a : Args) : Proc Ending := do
  let s ← a.text? 1
  discard (a.option 2 ["all", "collate", "ctype", "monetary", "numeric", "time"] (some "all"))
  let known := match s with
    | none => true
    | some s => s.size == 0 || s == ofText "C" || s == ofText "POSIX"
  Ending.value (if known then .ofText "C" else .nil)

end NpcDialog.Lua.System
