import SourceFormat.Cli.Grammar
import SourceFormat.Path

/-!
# The program's arguments

There are four commands: one writes an option file for a style, two check the formatter and its
option files, and one formats a source file.
-/

namespace SourceFormat.Cli

/-- What the program is called. -/
def programName : String := "uncrustify-bridge"

/-- The program's version. -/
def programVersion : String := "0.1.0-alpha.1"

/-- What the program is for. -/
def about : String := "Format sources with Uncrustify using editor code style settings"

/-! ## The commands -/

/-- How one file is to be formatted. -/
structure FormatCommand where
  file : Path
  settings : Option Path := none
  style : Option Path := none
  /-- The directory that is searched for an option file; the file's own by default. -/
  projectRoot : Option Path := none
  /-- The formatter, whatever the settings say. -/
  executable : Option Path := none
  /-- The language of an editor, which counts instead of the file's extension. -/
  language : Option String := none
  /-- Write the result back instead of printing it. -/
  write : Bool := false
  deriving Repr, DecidableEq

/-- A command. -/
inductive Command where
  | exportStyle (style : Path) (output : Option Path)
  | checkExecutable (path : Path)
  | checkConfig (executable config : Path)
  | format (options : FormatCommand)
  deriving Repr, DecidableEq

/-- What the arguments ask for. -/
inductive Invocation where
  | run (command : Command)
  /-- Print a text and do nothing else. -/
  | print (text : String)
  /-- The arguments make no sense. -/
  | refuse
  deriving Repr, DecidableEq

/-- The flag that every command knows: it asks for a log, which is kept apart from what the program
prints. -/
def verbose : OptionSpec where
  name := "verbose"
  letter := some 'v'
  help := "Enable debug logging (RUST_LOG takes precedence)"

/-- The command that writes an option file. -/
def exportSpec : CommandSpec where
  name := "export"
  about := "Translate style settings into an Uncrustify config file"
  options :=
    [{ name := "style", value := some "STYLE", isRequired := true
       help := "Style settings (TOML)" },
     verbose,
     { name := "output", letter := some 'o', value := some "OUTPUT"
       help := "Output file, stdout if omitted" }]
  operands := []

/-- The command that checks the formatter. -/
def checkExeSpec : CommandSpec where
  name := "check-exe"
  about := "Check that a path is an Uncrustify executable"
  options := [verbose]
  operands := [{ name := "PATH" }]

/-- The command that checks an option file. -/
def checkConfigSpec : CommandSpec where
  name := "check-config"
  about := "Dry-run a config file to check Uncrustify accepts it"
  options :=
    [{ name := "exe", value := some "EXE", isRequired := true, help := "Uncrustify executable" },
     verbose]
  operands := [{ name := "CONFIG" }]

/-- The command that formats. -/
def formatSpec : CommandSpec where
  name := "format"
  about := "Format a source file"
  options :=
    [verbose,
     { name := "settings", value := some "SETTINGS", help := "Bridge settings (TOML)" },
     { name := "style", value := some "STYLE"
       help := "Style settings (TOML) used when no config file is found" },
     { name := "project-root", value := some "PROJECT_ROOT"
       help := "Directory searched for uncrustify.cfg, the file's directory by default" },
     { name := "exe", value := some "EXE"
       help := "Uncrustify executable, overrides the settings" },
     { name := "language", value := some "LANGUAGE", allowsEmpty := true
       help := "Editor language ID (e.g. CPP, JAVA), checked instead of the extension" },
     { name := "write", letter := some 'w'
       help := "Write the result back instead of printing it" }]
  operands := [{ name := "FILE" }]

/-- All commands. -/
def commandSpecs : List CommandSpec := [exportSpec, checkExeSpec, checkConfigSpec, formatSpec]

/-! ## Help -/

/-- The names in the help text that stand on the left, padded to one width, with what they mean. -/
def table (rows : List (String × String)) : String :=
  let width := (rows.map (·.1.length)).foldl max 0
  String.join (rows.map fun (left, right) =>
    "  " ++ left ++ (if right.isEmpty then "" else
      "".pushn ' ' (width - left.length + 2) ++ right) ++ "\n")

/-- Above this width the meanings stand on lines of their own. -/
def lineWidth : Nat := 100

/-- The same with every meaning on a line of its own. -/
def tallTable (rows : List (String × String)) : String :=
  String.join (rows.map fun (left, right) =>
    "  " ++ left ++ "\n          " ++ right ++ "\n")

/-- A table in the form that fits. -/
def fittingTable (rows : List (String × String)) : String :=
  let taken := (rows.map (·.1.length)).foldl max 0 + 8
  let isTight := 40 * lineWidth < 100 * taken
  if isTight ∧ (rows.any fun (_, right) => lineWidth - taken < right.length) then tallTable rows
  else table rows

/-- How an option is written. -/
def OptionSpec.usage (o : OptionSpec) : String :=
  (match o.letter with
    | some c => "-" ++ c.toString ++ ", "
    | none => "    ")
  ++ "--" ++ o.name
  ++ (match o.value with
    | some v => " <" ++ v ++ ">"
    | none => "")

/-- The row for asking for help. -/
def helpRow : String × String := ("-h, --help", "Print help")

/-- The help text of a command. -/
def CommandSpec.helpText (c : CommandSpec) : String :=
  let required := (c.options.filter (·.isRequired)).map fun o =>
    " --" ++ o.name ++ " <" ++ o.value.getD "" ++ ">"
  let operands := c.operands.map fun o => " <" ++ o.name ++ ">"
  c.about ++ "\n\nUsage: " ++ programName ++ " " ++ c.name ++ " [OPTIONS]" ++ String.join required
    ++ String.join operands ++ "\n"
    ++ (if c.operands.isEmpty then "" else
      "\nArguments:\n" ++ String.join (c.operands.map fun o => "  <" ++ o.name ++ ">  \n"))
    ++ "\nOptions:\n" ++ fittingTable (c.options.map (fun o => (o.usage, o.help)) ++ [helpRow])

/-- What the call for help is for. -/
def helpAbout : String := "Print this message or the help of the given subcommand(s)"

/-- The help text of the call for help. -/
def helpOfHelp : String :=
  helpAbout ++ "\n\nUsage: " ++ programName ++ " help [COMMAND]...\n\nArguments:\n"
    ++ table [("[COMMAND]...", "Print help for the subcommand(s)")]

/-- The help text of the program. -/
def helpText : String :=
  about ++ "\n\nUsage: " ++ programName ++ " [OPTIONS] <COMMAND>\n\nCommands:\n"
    ++ table (commandSpecs.map (fun c => (c.name, c.about))
      ++ [("help", helpAbout)])
    ++ "\nOptions:\n"
    ++ table [(verbose.usage, verbose.help), helpRow, ("-V, --version", "Print version")]

/-- The version text of the program. -/
def versionText : String := programName ++ " " ++ programVersion ++ "\n"

/-! ## Reading arguments -/

/-- What may stand before a command. -/
def beforeCommand : Expected where
  options := [verbose]
  operands := []
  hasVersion := true

/-- What may stand behind a command. -/
def CommandSpec.expected (c : CommandSpec) : Expected where
  options := c.options
  operands := c.operands
  hasVersion := false

/-- The command that was given. -/
def commandOf (c : CommandSpec) (g : Given) : Option Command :=
  let path := fun (name : String) => (g.value? name).map Path.ofString
  match c.name, g.operands with
  | "export", [] => (path "style").map fun style => .exportStyle style (path "output")
  | "check-exe", [file] => some (.checkExecutable (.ofString file))
  | "check-config", [config] => (path "exe").map fun exe => .checkConfig exe (.ofString config)
  | "format", [file] =>
    some (.format {
      file := .ofString file
      settings := path "settings"
      style := path "style"
      projectRoot := path "project-root"
      executable := path "exe"
      language := g.value? "language"
      write := g.has "write" })
  | _, _ => none

/-- What arguments behind a command ask for. -/
def readCommand (c : CommandSpec) (args : List String) : Invocation :=
  match c.expected.read (fun _ => false) (args.length + 1) {} args with
  | .error .help => .print c.helpText
  | .error _ => .refuse
  | .ok (g, _) =>
    if c.expected.isComplete g then
      match commandOf c g with
      | some command => .run command
      | none => .refuse
    else .refuse

/-- What the arguments of a call for help ask for. -/
def readHelp : List String → Invocation
  | [] => .print helpText
  | ["help"] => .print helpOfHelp
  | [name] =>
    match commandSpecs.find? (·.name = name) with
    | some c => .print c.helpText
    | none => .refuse
  | _ => .refuse

/-- Whether an operand names a command. -/
def isCommand (a : String) : Bool := a = "help" || commandSpecs.any (·.name = a)

/-- What the program's arguments ask for. -/
def read (args : List String) : Invocation :=
  match beforeCommand.read isCommand (args.length + 1) {} args with
  | .error .help => .print helpText
  | .error .version => .print versionText
  | .error .usage => .refuse
  | .ok (_, []) => .refuse
  | .ok (_, name :: rest) =>
    if name = "help" then readHelp rest
    else
      match commandSpecs.find? (·.name = name) with
      | some c => readCommand c rest
      | none => .refuse

end SourceFormat.Cli
