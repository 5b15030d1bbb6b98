import NpcDialog.Command.Arguments
import NpcDialog.Dialog.ConfigFile
import NpcDialog.Dialog.Context
import NpcDialog.Toml.Printer

/-!
# Commands at work

What the commands print.  A dialog is played step by step: whatever the script
does up to its next stop is printed at once, and each line of input lets it go
on.  The end of the input ends the dialog too.  A script shares the standard output
with the command that plays it, and can end the process; all that it writes is taken
to be printed when it is written.

* `CommandFault` — why a command fails.
* `Played` — a dialog between two lines of input.
* `Invocation.start` — a command up to its first line of input.
* `Played.line` — one line of input.
* `Ending.ofRun` — a run of the program with all of its input.
-/

namespace NpcDialog.Command

/-- Why a command fails. -/
inductive CommandFault where
  /-- There is no configuration. -/
  | config (path : String) (f : ConfigFault)
  /-- The script has no metadata. -/
  | compile (f : CompileFault)
  /-- The dialog cannot begin. -/
  | execution (f : ExecutionFault)
  /-- The code of the script cannot be loaded. -/
  | notLoaded (path : String)
  /-- The script failed. -/
  | scriptFailed (path : String)
  /-- A line of input is no text. -/
  | input (f : ReadFault)
  deriving DecidableEq

namespace CommandFault

/-- What went wrong, and what that came from, in turn. -/
def chain : CommandFault → List String
  | .config path f => [s!"Failed to load config from {path}", f.text] ++ f.cause?.toList
  | .compile f =>
    f.text :: match f.cause with
      | .unreadable e => [e.text]
      | _ => []
  | .execution f => [f.text]
  | .notLoaded path => [s!"Failed to load bytecode for {path}"]
  | .scriptFailed path => [s!"{path} failed, see the log for details"]
  | .input f => [f.text]

/-- A text whose lines but the first begin with blanks. -/
def indented (width : Nat) (s : String) : String :=
  let blanks := String.ofList (List.replicate width ' ')
  ("\n" ++ blanks).intercalate (s.splitOn "\n")

/-- The causes in a list, numbered if there are several. -/
def causeList (causes : List String) : String :=
  match causes with
  | [] => ""
  | [c] => "\n\nCaused by:\n    " ++ indented 4 c
  | causes =>
    let lines := causes.zipIdx.map fun (c, i) =>
      let number := toString i
      "\n" ++ String.ofList (List.replicate (5 - number.length) ' ') ++ number ++ ": " ++ indented 7 c
    "\n\nCaused by:" ++ String.join lines

/-- The message. -/
def text (f : CommandFault) : String :=
  upToTrace ("Error: " ++ (f.chain.headD "") ++ causeList f.chain.tail ++ "\n")

end CommandFault

/-- What a finished command leaves. -/
structure Ending where
  /-- What it printed. -/
  output : String
  /-- What it complained of. -/
  errors : String
  /-- Its exit code. -/
  code : Nat
  deriving DecidableEq

namespace Ending

/-- The end of a command that did its work. -/
def success (output : String) : Ending := ⟨output, "", 0⟩

/-- The end of a command that failed. -/
def failure (output : String) (f : CommandFault) : Ending := ⟨output, f.text, 1⟩

/-- The end of a command that printed nothing, and what went wrong if anything did. -/
def of : Option CommandFault → Ending
  | none => success ""
  | some f => failure "" f

/-- The end of a program that was not asked for any work. -/
def ofRefusal : Refusal → Ending
  | .fault f => ⟨"", f.text, 2⟩
  | .nothing => ⟨"", Command.program.helpText, 2⟩
  | .help c => ⟨c.helpText, "", 0⟩
  | .version => ⟨Command.versionText, "", 0⟩

/-- The end with something printed before it. -/
def after (output : String) (e : Ending) : Ending := { e with output := output ++ e.output }

end Ending

/-! ## Looking at a script -/

/-- The metadata of a script as it is printed; `size` writes the size of its
code. -/
def shownMetadata (size : Nat → String) (m : Metadata) : String :=
  Toml.writeField "path" (Toml.writeString m.path)
    ++ Toml.writeField "map" (Toml.writeString m.map)
    ++ Toml.writeField "x" (toString m.x)
    ++ Toml.writeField "y" (toString m.y)
    ++ Toml.writeField "facing" (toString m.facing)
    ++ Toml.writeField "name" (Toml.writeString m.name)
    ++ Toml.writeField "sprite" (toString m.sprite)
    ++ match m.code with
      | some c => s!"# bytecode: {size c.size} bytes\n"
      | none => "# bytecode: none\n"

/-! ## What is printed -/

/-- An event as it is printed. -/
def shownEvent (speaker : String) : EventKind → String
  | .message text => s!"[{speaker}] {text}\n"
  | .advance => "  (press Enter to continue)\n"
  | .close => s!"[{speaker} closes the dialog]\n"

/-- What is printed of a report: of an event, and of what a script writes itself. -/
def shownReport (speaker : String) : Report → String
  | .event e => shownEvent speaker e.kind
  | .process (.prints text) => text.toText
  | _ => ""

/-- What is printed of reports, up to the end of the process if one of them is that, and
the exit code then. -/
def shownReports (speaker : String) : List Report → String × Option Nat
  | [] => ("", none)
  | .process (.exits code) :: _ => ("", some code)
  | r :: rs =>
    let (output, code) := shownReports speaker rs
    (shownReport speaker r ++ output, code)

/-- The end of a command behind reports, among which the process may have ended. -/
def Ending.behind (speaker : String) (told : List Report) (e : Ending) : Ending :=
  match shownReports speaker told with
  | (output, none) => e.after output
  | (output, some code) => ⟨output, "", code⟩

/-! ## Playing a script -/

/-- A dialog between two lines of input. -/
structure Played where
  /-- The path of the script. -/
  path : String
  /-- The name of the entity. -/
  speaker : String
  /-- The conversation. -/
  context : Context
  /-- The host. -/
  host : Host

/-- How far a command has come. -/
inductive Stage where
  /-- It is over, and leaves a host behind. -/
  | over (e : Ending) (host : Host)
  /-- It has printed something and waits for a line of input. -/
  | waiting (output : String) (p : Played)

/-- A stage behind reports, among which the process may have ended. -/
def Stage.behind (speaker : String) (told : List Report) (host : Host) : Stage → Stage
  | .over e host => .over (e.behind speaker told) host
  | .waiting output p =>
    match shownReports speaker told with
    | (before, none) => .waiting (before ++ output) p
    | (before, some code) => .over ⟨before, "", code⟩ host

namespace Played

/-- The end of a dialog.  The conversation is thrown away before anything is said of what
went wrong. -/
def leave (p : Played) (fault : Option CommandFault) : Ending × Host :=
  let told := p.context.drop p.host
  ((Ending.of fault).behind p.speaker told.reports, told.host)

/-- The end of a dialog that nobody lets go on. -/
def stop (p : Played) : Ending × Host :=
  p.leave (if p.context.state == some .failed then some (.scriptFailed p.path) else none)

/-- A dialog behind a step that told something. -/
def stage (p : Played) (told : List Report) : Stage :=
  .behind p.speaker told p.host
    (if p.context.state == some .suspended then .waiting "" p else .over p.stop.1 p.stop.2)

/-- One line of input, which lets the script go on if it is text. -/
def line (p : Played) (input : Bytes) : Stage :=
  if input.isText then
    let told := p.context.resume p.host
    stage { p with context := told.value.2, host := told.host } told.reports
  else
    let (e, host) := p.leave (some (.input .notText))
    .over e host

/-- The end of a dialog with all of its input. -/
def through : List Bytes → Played → Ending
  | [], p => p.stop.1
  | input :: rest, p =>
    match p.line input with
    | .over e _ => e
    | .waiting output p => (through rest p).after output

end Played

/-- The beginning of a dialog. -/
def beginPlay (config : Config) (script : Metadata) (session entity : UInt32) (host : Host) : Stage :=
  match script.code with
  | none => .over (.success s!"{script.name} has nothing to say.\n") host
  | some code =>
    let made := Context.create config ⟨session⟩ ⟨entity⟩ host
    match made.value with
    | .error f => .over (.failure "" (.execution f)) made.host
    | .ok c =>
      let told := c.run code made.host
      let p : Played := ⟨script.path, script.name, told.value.2, told.host⟩
      if told.value.1 then p.stage told.reports
      else
        let (e, host) := p.leave (some (.notLoaded script.path))
        .over e host

/-! ## Commands -/

/-- The configuration that a command asks for. -/
def configOf (path : Option String) : Action (Except CommandFault Config) :=
  match path with
  | none => return .ok Config.default
  | some path => do
    match ← Config.load path with
    | .ok c => return .ok c
    | .error f => return .error (.config path f)

/-- A command up to its first line of input; `size` writes the size of code. -/
def Invocation.start (size : Nat → String) (v : Invocation) (files : FileTree) : Stage :=
  let read := configOf v.config (Host.start files)
  match read.value with
  | .error f => .over (.failure "" f) read.host
  | .ok config =>
    let path := match v.request with
      | .check path | .play path _ _ => path
    let told := Metadata.read config path read.host
    .behind "" told.reports told.host <|
      match told.value, v.request with
      | .error f, _ => .over (.failure "" (.compile f)) told.host
      | .ok m, .check _ => .over (.success (shownMetadata size m)) told.host
      | .ok m, .play _ session entity => beginPlay config m session entity told.host

/-- The lines of an input from index `i` on, each with its line feed; the first
argument bounds them. -/
def inputLinesFrom (b : Bytes) : Nat → Nat → List Bytes
  | 0, _ => []
  | n + 1, i =>
    if b.size ≤ i then []
    else
      match b.indexOf? 10 i with
      | some j => b.slice i (j + 1) :: inputLinesFrom b n (j + 1)
      | none => [b.slice i b.size]

/-- The lines of an input. -/
def inputLines (b : Bytes) : List Bytes := inputLinesFrom b (b.size + 1) 0

/-- A program run with all of its input. -/
def Ending.ofRun (size : Nat → String) (args : List String) (files : FileTree) (input : Bytes) : Ending :=
  match Invocation.ofArguments args with
  | .error r => .ofRefusal r
  | .ok v =>
    match v.start size files with
    | .over e _ => e
    | .waiting output p => (p.through (inputLines input)).after output

end NpcDialog.Command
