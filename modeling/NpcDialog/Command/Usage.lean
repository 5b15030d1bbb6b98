/-!
# Commands and options

The commands of the program with the options that each of them takes, their
usage lines and their help.

* `Parameter` — an option or the path.
* `Command` — a command with its parameters.
* `Command.usage` — the usage line.
* `Command.helpText` — the help text.
-/

namespace NpcDialog.Command

/-- What a parameter takes. -/
inductive ParameterKind where
  /-- Nothing; it may be given again and again. -/
  | counted
  /-- A path. -/
  | path
  /-- A number of 32 bits. -/
  | word
  /-- Nothing; it asks for help. -/
  | help
  /-- Nothing; it asks for the version. -/
  | version
  deriving DecidableEq

/-- An option, or the path that a command takes. -/
structure Parameter where
  /-- The long name, empty for the path. -/
  name : String
  /-- The short name. -/
  short : Option Char
  /-- What it takes. -/
  kind : ParameterKind
  deriving DecidableEq

namespace Parameter

/-- Does it take a value? -/
def takesValue (p : Parameter) : Bool := p.kind == .path || p.kind == .word

/-- Is it the path? -/
def isPositional (p : Parameter) : Bool := p.name.isEmpty

/-- The parameter in messages. -/
def text (p : Parameter) : String :=
  if p.isPositional then "<PATH>"
  else if p.takesValue then s!"--{p.name} <{p.name.map Char.toUpper}>"
  else if p.kind == .counted then s!"--{p.name}..."
  else s!"--{p.name}"

/-- The path of a script. -/
def script : Parameter := ⟨"", none, .path⟩

/-- More log lines. -/
def debug : Parameter := ⟨"debug", some 'd', .counted⟩

/-- The path of a configuration. -/
def config : Parameter := ⟨"config", some 'c', .path⟩

/-- The number of the session. -/
def session : Parameter := ⟨"session", none, .word⟩

/-- The number of the entity. -/
def entity : Parameter := ⟨"entity", none, .word⟩

/-- Help. -/
def help : Parameter := ⟨"help", some 'h', .help⟩

/-- The version. -/
def version : Parameter := ⟨"version", some 'V', .version⟩

end Parameter

end Command

/-- The commands. -/
inductive Command where
  /-- The program itself. -/
  | program
  /-- Looking at a script. -/
  | check
  /-- Playing a script. -/
  | run
  /-- Help. -/
  | help
  deriving DecidableEq

namespace Command

/-- The name of the program. -/
def programName : String := "npcscript"

/-- The version of the program. -/
def versionText : String := "npcscript-cli 0.1.0\n"

/-- The name of a command. -/
def name : Command → String
  | .program => programName
  | .check => "check"
  | .run => "run"
  | .help => "help"

/-- The commands of the program. -/
def all : List Command := [.check, .run, .help]

/-- The commands inside a command. -/
def inner : Command → List Command
  | .program => all
  | _ => []

/-- The options of a command. -/
def options : Command → List Parameter
  | .program => [.debug, .config, .help, .version]
  | .check => [.config, .help]
  | .run => [.session, .entity, .config, .help]
  | .help => []

/-- Does a command take a path? -/
def takesPath : Command → Bool
  | .check | .run => true
  | _ => false

/-- The command's name behind that of the program. -/
def fullName : Command → String
  | .program => programName
  | c => s!"{programName} {c.name}"

/-- The usage line. -/
def usage (c : Command) : String :=
  match c with
  | .program => s!"Usage: {c.fullName} [OPTIONS] <COMMAND>"
  | .help => s!"Usage: {c.fullName} [COMMAND]..."
  | c => s!"Usage: {c.fullName} [OPTIONS] <PATH>"

/-- The usage line with the parameters that were used, if there are any. -/
def usageWith (c : Command) (used : List Parameter) : String :=
  if used.isEmpty then c.usage
  else
    let shown := (used.filter fun p => !p.isPositional).map fun p => " " ++ p.text
    let tail := match c with
      | .program => " <COMMAND>"
      | .help => ""
      | _ => " <PATH>"
    s!"Usage: {c.fullName}" ++ String.join shown ++ tail

/-- What a command does, in one line. -/
def about : Command → String
  | .program => "Command line tool for checking and playing npcscript dialogs"
  | .check => "Compile a script and print its metadata"
  | .run => "Play a script's dialog in the terminal"
  | .help => "Print this message or the help of the given subcommand(s)"

/-- The lists of the help text. -/
def helpLists : Command → String
  | .program => "
Commands:
  check  Compile a script and print its metadata
  run    Play a script's dialog in the terminal
  help   Print this message or the help of the given subcommand(s)

Options:
  -d, --debug...         Enables debug logging
  -c, --config <CONFIG>  Scripting config file (TOML)
  -h, --help             Print help
  -V, --version          Print version
"
  | .check => "
Arguments:
  <PATH>  Script file to check

Options:
  -c, --config <CONFIG>  Scripting config file (TOML)
  -h, --help             Print help
"
  | .run => "
Arguments:
  <PATH>  Script file to run

Options:
      --session <SESSION>  Session id the dialog is addressed to [default: 1]
  -c, --config <CONFIG>    Scripting config file (TOML)
      --entity <ENTITY>    Entity id the dialog comes from [default: 1]
  -h, --help               Print help
"
  | .help => "
Arguments:
  [COMMAND]...  Print help for the subcommand(s)
"

/-- The help text. -/
def helpText (c : Command) : String := c.about ++ "\n\n" ++ c.usage ++ "\n" ++ c.helpLists

end Command

end NpcDialog
