import NpcDialog.Command.Similarity
import NpcDialog.Command.Usage

/-!
# Arguments

What the arguments of the program ask for.  They are read from left to right:
options before the command belong to the program, those behind it to the
command.  The value of an option is judged as late as possible, when the next
argument is understood, so that an argument that nobody understands is
reported first.

* `UsageFault` — what is wrong with the arguments.
* `Invocation` — what they ask for.
* `Invocation.ofArguments` — the reading.
-/

namespace NpcDialog.Command

/-- What is wrong with the arguments. -/
inductive UsageFault where
  /-- Nobody understands an argument. -/
  | unexpected (arg : String) (tip : Option String) (usage : String) (command : Command)
  /-- There is no such command. -/
  | unknownCommand (name : String) (similar : List String) (command : Command)
  /-- A value is not what its option takes. -/
  | invalidValue (value : String) (parameter : Parameter) (reason : String)
  /-- An option has no value. -/
  | missingValue (parameter : Parameter)
  /-- An option that takes no value has one. -/
  | unneededValue (value : String) (parameter : Parameter) (usage : String)
  /-- An option was given twice. -/
  | repeated (parameter : Parameter) (usage : String)
  /-- The path is missing. -/
  | missingPath (usage : String)
  /-- The command is missing. -/
  | missingCommand
  deriving DecidableEq

/-- The words that lead to more information. -/
def moreHelp (c : Command) : String :=
  if c == .help then "\n" else "\n\nFor more information, try '--help'.\n"

/-- The tip about words that are similar. -/
def similarTip (similar : List String) : String :=
  let list := ", ".intercalate (similar.map fun s => "'" ++ s ++ "'")
  if similar.length == 1 then s!"a similar subcommand exists: {list}"
  else s!"some similar subcommands exist: {list}"

/-- A tip as a paragraph. -/
def tipText (tip : Option String) : String := tip.elim "" fun t => s!"\n\n  tip: {t}"

/-- The message. -/
def UsageFault.text : UsageFault → String
  | .unexpected arg tip usage c =>
    s!"error: unexpected argument '{arg}' found" ++ tipText tip ++ "\n\n" ++ usage ++ moreHelp c
  | .unknownCommand name similar c =>
    s!"error: unrecognized subcommand '{name}'"
      ++ tipText (if similar.isEmpty then none else some (similarTip similar))
      ++ "\n\n" ++ c.usage ++ moreHelp c
  | .invalidValue value p reason =>
    s!"error: invalid value '{value}' for '{p.text}': {reason}" ++ moreHelp .program
  | .missingValue p =>
    s!"error: a value is required for '{p.text}' but none was supplied" ++ moreHelp .program
  | .unneededValue value p usage =>
    s!"error: unexpected value '{value}' for '{p.text}' found; no more were expected\n\n"
      ++ usage ++ moreHelp .program
  | .repeated p usage =>
    s!"error: the argument '{p.text}' cannot be used multiple times\n\n" ++ usage ++ moreHelp .program
  | .missingPath usage =>
    "error: the following required arguments were not provided:\n  <PATH>\n\n" ++ usage
      ++ moreHelp .program
  | .missingCommand =>
    let list := ", ".intercalate (Command.all.map Command.name)
    s!"error: '{Command.programName}' requires a subcommand but one was not provided\n  [subcommands: {list}]\n\n"
      ++ Command.program.usage ++ moreHelp .program

/-- Why the arguments ask for no work. -/
inductive Refusal where
  /-- They are wrong. -/
  | fault (f : UsageFault)
  /-- Nothing was asked for. -/
  | nothing
  /-- They ask for help. -/
  | help (c : Command)
  /-- They ask for the version. -/
  | version
  deriving DecidableEq

/-- What the program is asked to do. -/
inductive Request where
  /-- To look at a script. -/
  | check (path : String)
  /-- To play a script. -/
  | play (path : String) (session entity : UInt32)
  deriving DecidableEq

/-- What the arguments ask for. -/
structure Invocation where
  /-- The path of the configuration. -/
  config : Option String
  /-- The work. -/
  request : Request
  deriving DecidableEq

/-! ## Values -/

/-- The number that decimal digits stand for. -/
def digitsNumber (ds : List Char) : Option Nat :=
  ds.foldl (fun n c => n.bind fun n => if c.isDigit then some (n * 10 + (c.toNat - 48)) else none) (some 0)

/-- A number with a sign, within 64 bits, or what is wrong with it. -/
def readInteger (s : String) : Except String Int :=
  let chars := s.toList
  let negative := chars.head? == some '-'
  let digits := if negative || chars.head? == some '+' then chars.tail else chars
  if chars.isEmpty then .error "cannot parse integer from empty string"
  else
    match if digits.isEmpty then none else digitsNumber digits with
    | none => .error "invalid digit found in string"
    | some n =>
      if negative then
        if 0x8000000000000000 < n then .error "number too small to fit in target type" else .ok (-n)
      else if 0x8000000000000000 ≤ n then .error "number too large to fit in target type"
      else .ok n

/-- A number of 32 bits, or what is wrong with it. -/
def readWord (s : String) : Except String UInt32 :=
  match readInteger s with
  | .error reason => .error reason
  | .ok n =>
    if 0 ≤ n ∧ n < 0x100000000 then .ok (UInt32.ofNat n.toNat)
    else .error s!"{n} is not in 0..=4294967295"

/-- What is wrong with the value of a parameter. -/
def valueFault (p : Parameter) (value : String) : Option UsageFault :=
  match p.kind with
  | .path => if value.isEmpty then some (.missingValue p) else none
  | .word =>
    match readWord value with
    | .ok _ => none
    | .error reason => some (.invalidValue value p reason)
  | _ => none

/-! ## Reading -/

/-- What was read of the arguments of one command. -/
structure Scan where
  /-- The parameters that were given, with their values. -/
  given : List (Parameter × Option String)
  /-- The last parameter, which has not been judged yet. -/
  pending : Option (Parameter × Option String)
  /-- Are all further arguments paths? -/
  isTrailing : Bool
  /-- Was the path given? -/
  hasPath : Bool

namespace Scan

/-- Nothing was read. -/
def start : Scan := ⟨[], none, false, false⟩

/-- Does the last option wait for its value? -/
def wantsValue (s : Scan) : Bool :=
  match s.pending with
  | some (p, none) => p.takesValue
  | _ => false

/-- The value of a parameter. -/
def value? (s : Scan) (p : Parameter) : Option String := (s.given.lookup p).join

/-- The parameters that were given, in order. -/
def used (s : Scan) : List Parameter := (s.given.map Prod.fst).eraseDups

/-- Notes a parameter with its value, or says what is wrong with it. -/
def note (c : Command) (p : Parameter) (v : Option String) (s : Scan) : Option UsageFault × Scan :=
  let noted := { s with given := s.given ++ [(p, v)] }
  if p.takesValue then
    match v with
    | none => (some (.missingValue p), s)
    | some value =>
      if (s.given.lookup p).isSome then
        (some (.repeated p c.usage), { s with given := s.given.filter fun g => g.1 != p })
      else (valueFault p value, noted)
  else (none, noted)

/-- Judges the last parameter. -/
def settle (c : Command) (s : Scan) : Option UsageFault × Scan :=
  match s.pending with
  | none => (none, s)
  | some (p, v) => note c p v { s with pending := none }

end Scan

/-- The reading of one command's arguments, which may be refused. -/
abbrev Reading := Except Refusal

/-- Judges the last parameter, and refuses it if it is wrong. -/
def settled (c : Command) (s : Scan) : Reading Scan :=
  match s.settle c with
  | (some f, _) => .error (.fault f)
  | (none, s) => .ok s

/-- An argument that nobody understands, given the words to take it as a
path. -/
def unexpectedPlain (c : Command) (arg : String) (isDashed : Bool) : Refusal :=
  let tip := if isDashed && c.takesPath then some s!"to pass '{arg}' as a value, use '-- {arg}'" else none
  .fault (.unexpected arg tip c.usage c)

/-- The commands inside a command that have an option much like a given one,
with the option and their place among the remaining arguments. -/
def optionsElsewhere (c : Command) (name : String) (rest : List String) : List (Nat × String) :=
  c.inner.filterMap fun sub => do
    let best ← (similarWords name (sub.options.map Parameter.name)).getLast?
    let place ← rest.idxOf? sub.name
    return (place, s!"'{sub.name} --{best}' exists")

/-- The first of some items whose number is least. -/
def leastFirst : List (Nat × String) → Option String
  | [] => none
  | (n, s) :: rest =>
    if rest.all fun p => n ≤ p.1 then some s else leastFirst rest

/-- A long option that nobody understands. -/
def unexpectedLong (c : Command) (name : String) (rest : List String) (s : Scan) : Refusal :=
  let s := (s.settle c).2
  let arg := "--" ++ name
  let plainTip := if c.takesPath then some s!"to pass '{arg}' as a value, use '-- {arg}'" else none
  match (similarWords name (c.options.map Parameter.name)).getLast? with
  | some best =>
    let guessed := c.options.filter fun p => p.name == best
    let used := (s.used.filter fun p => !p.isPositional) ++ guessed
    let usage := c.usageWith used.eraseDups
    .fault (.unexpected arg (some s!"a similar argument exists: '--{best}'") usage c)
  | none =>
    let tip := (leastFirst (optionsElsewhere c name rest)).orElse fun _ => plainTip
    .fault (.unexpected arg tip (c.usageWith (s.used.filter fun p => !p.isPositional)) c)

/-- An option without a value. -/
def flag (c : Command) (p : Parameter) (s : Scan) : Reading Scan := do
  let s ← settled c s
  match p.kind with
  | .help => .error (.help c)
  | .version => .error .version
  | _ => return (s.note c p none).2

/-- An option that takes a value, which may be attached to it. -/
def valued (c : Command) (p : Parameter) (attached : Option String) (s : Scan) : Reading Scan := do
  let s ← settled c s
  match attached with
  | none => return { s with pending := some (p, none) }
  | some v =>
    match s.note c p (some v) with
    | (some f, _) => .error (.fault f)
    | (none, s) => return s

/-- A long option. -/
def long (c : Command) (name : String) (attached : Option String) (rest : List String) (s : Scan) :
    Reading Scan :=
  match c.options.find? fun p => p.name == name with
  | none => .error (unexpectedLong c name rest s)
  | some p =>
    if p.takesValue then valued c p attached s
    else
      match attached with
      | none => flag c p s
      | some v =>
        let used := (s.used.filter fun p => !p.isPositional) ++ [p]
        .error (.fault (.unneededValue v p (c.usageWith used.eraseDups)))

/-- A group of short options behind one dash. -/
def shorts (c : Command) : List Char → Scan → Reading Scan
  | [], s => .ok s
  | d :: rest, s =>
    match c.options.find? fun p => p.short == some d with
    | none => .error (unexpectedPlain c s!"-{d}" true)
    | some p =>
      if p.takesValue then
        let attached :=
          match rest with
          | [] => none
          | '=' :: v => some (String.ofList v)
          | v => some (String.ofList v)
        valued c p attached s
      else
        match flag c p s with
        | .ok s => shorts c rest s
        | .error e => .error e

/-- An argument that is no option. -/
def positional (c : Command) (arg : String) (s : Scan) : Reading Scan :=
  if c.takesPath && !s.hasPath then do
    let s ← settled c s
    return { s with pending := some (.script, some arg), hasPath := true }
  else
    let names := c.inner.map Command.name
    if s.isTrailing && names.contains arg then
      let tip := s!"subcommand '{arg}' exists; to use it, remove the '--' before it"
      .error (.fault (.unexpected arg (some tip) c.usage c))
    else if c.inner.isEmpty then .error (unexpectedPlain c arg false)
    else .error (.fault (.unknownCommand arg (similarWords arg names) c))

/-- The name and the attached value of a long option. -/
def splitLong (chars : List Char) : String × Option String :=
  let name := chars.takeWhile (· != '=')
  let rest := chars.drop name.length
  (String.ofList name, if rest.isEmpty then none else some (String.ofList rest.tail))

/-- One argument that is no command. -/
def argument (c : Command) (arg : String) (rest : List String) (s : Scan) : Reading Scan :=
  let value : Reading Scan :=
    match s.pending with
    | some (p, none) =>
      if p.takesValue then .ok { s with pending := some (p, some arg) } else positional c arg s
    | _ => positional c arg s
  if s.isTrailing then positional c arg s
  else
    match arg.toList with
    | ['-', '-'] => .ok { s with isTrailing := true }
    | '-' :: '-' :: name =>
      let (name, attached) := splitLong name
      long c name attached rest s
    | '-' :: d :: more => shorts c (d :: more) s
    | _ => value

/-- The command that the next argument names. -/
def commandNamed (c : Command) (arg : String) (s : Scan) : Option Command :=
  if s.isTrailing || s.wantsValue then none else c.inner.find? fun sub => sub.name == arg

/-- The arguments of a command up to the next command, which comes with what
follows it. -/
def scan (c : Command) : List String → Scan → Reading (Scan × Option (Command × List String))
  | [], s => .ok (s, none)
  | arg :: rest, s =>
    match commandNamed c arg s with
    | some sub => .ok (s, some (sub, rest))
    | none =>
      match argument c arg rest s with
      | .ok s => scan c rest s
      | .error e => .error e

/-- Help about the command that some names lead to. -/
def helpAbout (c : Command) : List String → Refusal
  | [] => .help c
  | name :: rest =>
    match c.inner.find? fun sub => sub.name == name with
    | some sub => helpAbout sub rest
    | none => .fault (.unknownCommand name [] c)

/-- The number that an option was given, or one. -/
def wordOf (s : Scan) (p : Parameter) : UInt32 :=
  match (s.value? p).map readWord with
  | some (.ok n) => n
  | _ => 1

/-- What a command's own arguments ask for. -/
def requestOf (c : Command) (args : List String) : Reading (Option String × Request) := do
  let (s, _) ← scan c args Scan.start
  let s ← settled c s
  match s.value? .script with
  | none =>
    .error (.fault (.missingPath (c.usageWith (s.used.filter (fun p => !p.isPositional) ++ [.script]))))
  | some path =>
    let request := if c == .run then .play path (wordOf s .session) (wordOf s .entity) else .check path
    return (s.value? .config, request)

/-- What the arguments of the program ask for. -/
def Invocation.ofArguments (args : List String) : Reading Invocation := do
  let (s, next) ← scan .program args Scan.start
  match next with
  | some (.help, rest) => .error (helpAbout .program rest)
  | some (c, rest) => do
    let (config, request) ← requestOf c rest
    let s ← settled .program s
    return ⟨config.orElse fun _ => s.value? .config, request⟩
  | none => do
    let s ← settled .program s
    if s.given.isEmpty then .error .nothing else .error (.fault .missingCommand)

end NpcDialog.Command
