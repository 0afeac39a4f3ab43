import SourceFormat.Cli.Arguments
import SourceFormat.Cli.Failure
import SourceFormat.Formatter.Probe
import SourceFormat.Formatter.Validator
import SourceFormat.Formatting.Request
import SourceFormat.Settings.Store
import SourceFormat.Style.Store

/-!
# The program

Each command works on the files and on what the formatter does with them.  Runs of the formatter are
the business of `Services`; everything that is decided here is decided in the same way whatever they
answer.

The order of a formatting command is fixed: settings, style, eligibility, the file itself, and only
then the formatter.  So what is wrong with the first four is found before anything is launched, and
the file is written back only with a completed outcome.  Writing it back is what can go wrong last,
and behind a failure in the middle of it the file is not what it was.
-/

namespace SourceFormat.Cli

open Subprocess (RunError)
open Formatter (Verdict Acceptance)

/-- Who runs the formatter.  Each run takes the files as they are and may change them. -/
structure Services where
  /-- Is this path the formatter? -/
  verify : FileTree → Option Duration → Path → FileTree × Verdict
  /-- Does the formatter take this option file? -/
  validate : FileTree → Option Duration → Path → Path → FileTree × Except RunError Acceptance
  /-- Format a document. -/
  format : FileTree → Settings → Style → Formatting.Request → FileTree × Formatting.Outcome

/-- What the program prints, and the status it ends with. -/
structure Finished where
  exit : Nat := 0
  stdout : String := ""
  stderr : String := ""
  deriving Repr, DecidableEq

namespace Finished

/-- A failure, which is shown on standard error. -/
def failed (f : Failure) : Finished := { exit := 1, stderr := f.render }

/-- Success, with something to print. -/
def printed (stdout : String) : Finished := { stdout }

/-- The same with something printed on standard error before. -/
def after (x : Finished) (stderr : String) : Finished := { x with stderr := stderr ++ x.stderr }

end Finished

/-- The style of an option; the stock style if there is none. -/
def loadStyle (t : FileTree) : Option Path → Except Failure Style
  | none => .ok {}
  | some path =>
    match Style.load t path with
    | .ok style => .ok style
    | .error e =>
      .error ⟨"Error reading style settings '" ++ path.text ++ "'", [e.message, e.sourceText]⟩

/-- The settings of an option; the stock settings if there is none. -/
def loadSettings (t : FileTree) : Option Path → Except Failure Settings
  | none => .ok {}
  | some path =>
    match Settings.load t path with
    | .ok settings => .ok settings
    | .error e => .error ⟨e.message, [e.sourceText]⟩

/-- Write an option file for a style, or print it.  What the file cannot express is shown
first. -/
def exportStyle (disk : Disk) (t : FileTree) (style : Path) (output : Option Path) :
    FileTree × Finished :=
  match loadStyle t (some style) with
  | .error f => (t, .failed f)
  | .ok style =>
    let exported := style.exported
    let warnings := String.join (exported.warnings.map fun w => "warning: " ++ w.text ++ "\n")
    match output with
    | none => (t, (Finished.printed (toString exported.file)).after warnings)
    | some path =>
      match exported.file.save disk t path with
      | (t, .ok ()) => (t, (Finished.printed "").after warnings)
      | (t, .error e) =>
        (t, (Finished.failed
          ⟨"Error writing config '" ++ path.text ++ "'", [e.text]⟩).after warnings)

/-- Say whether a path is the formatter. -/
def checkExecutable (srv : Services) (t : FileTree) (path : Path) : FileTree × Finished :=
  match srv.verify t ({} : Settings).timeout path with
  | (t, .valid version) => (t, .printed (version.text ++ "\n"))
  | (t, .invalid reason) =>
    (t, .failed (.ofMessage
      ("'" ++ path.text ++ "' is not a usable Uncrustify executable: " ++ reason.message)))
  | (t, .cancelled) => (t, .failed (.ofMessage "Verification was cancelled"))

/-- Say whether the formatter takes an option file. -/
def checkConfig (srv : Services) (t : FileTree) (executable config : Path) : FileTree × Finished :=
  match srv.validate t ({} : Settings).timeout executable config with
  | (t, .error e) =>
    (t, .failed ⟨"Failed to run '" ++ executable.text ++ "'",
      e.message :: (e.source?.map (·.text)).toList⟩)
  | (t, .ok .valid) => (t, .printed (config.text ++ " is valid\n"))
  | (t, .ok (.invalid output)) =>
    (t, (Finished.failed
      (.ofMessage ("'" ++ config.text ++ "' was rejected by Uncrustify"))).after output)
  | (t, .ok .cancelled) => (t, .failed (.ofMessage "Validation was cancelled"))

/-! ## Formatting -/

/-- Why a file is not formatted with these settings, if it is not. -/
def ineligible? (settings : Settings) (c : FormatCommand) : Option Failure :=
  if !settings.formattingEnabled then
    some (.ofMessage "Formatting is disabled in the settings")
  else
    match c.language with
    | some language =>
      if settings.canFormatLanguage language then none
      else some (.ofMessage ("Language '" ++ language ++ "' is not supported by Uncrustify"))
    | none =>
      if settings.canFormat c.file then none
      else some (.ofMessage ("'" ++ c.file.text ++ "' is not a file Uncrustify can format"))

/-- The directory that is searched for an option file: the one given, or else the directory part of
the file's path, which a bare name does not have. -/
def rootOf (c : FormatCommand) : Option Path :=
  c.projectRoot.orElse fun _ => c.file.parent?.filter (!·.isEmpty)

/-- What a formatting command needs before the formatter is run. -/
structure Prepared where
  settings : Settings
  style : Style
  request : Formatting.Request
  deriving Repr, DecidableEq

/-- Everything up to the run of the formatter.  Nothing is changed by it. -/
def prepare (t : FileTree) (c : FormatCommand) : Except Failure Prepared := do
  let settings ← loadSettings t c.settings
  let settings := match c.executable with
    | some executable => { settings with executable }
    | none => settings
  let style ← loadStyle t c.style
  match ineligible? settings c with
  | some f => .error f
  | none =>
    match t.readText c.file with
    | .error e => .error ⟨"Error reading file '" ++ c.file.text ++ "'", [e.text]⟩
    | .ok text =>
      .ok ⟨settings, style, { fileName := c.file, text, projectRoot := rootOf c }⟩

/-- The failure of a formatting command that cannot write its file back. -/
def writeFailure (c : FormatCommand) (e : SystemError) : Failure :=
  ⟨"Error writing file '" ++ c.file.text ++ "'", [e.text]⟩

/-- What a formatting command makes of an outcome. -/
def conclude (disk : Disk) (t : FileTree) (c : FormatCommand) :
    Formatting.Outcome → FileTree × Finished
  | .completed text =>
    if c.write then
      match t.save disk c.file (Utf8.encode text) with
      | (t, .ok ()) => (t, .printed "")
      | (t, .error e) => (t, .failed (writeFailure c e))
    else (t, .printed text)
  | .failed e =>
    (t, .failed (.ofMessage (Formatting.Error.title ++ ": " ++ e.message)))
  | .cancelled => (t, .failed (.ofMessage "Formatting was cancelled"))

/-- Format a file. -/
def formatFile (srv : Services) (disk : Disk) (t : FileTree) (c : FormatCommand) :
    FileTree × Finished :=
  match prepare t c with
  | .error f => (t, .failed f)
  | .ok p =>
    let (t, outcome) := srv.format t p.settings p.style p.request
    conclude disk t c outcome

/-! ## Running the program -/

/-- Run a command. -/
def Command.run (srv : Services) (disk : Disk) (t : FileTree) : Command → FileTree × Finished
  | exportStyle style output => Cli.exportStyle disk t style output
  | checkExecutable path => Cli.checkExecutable srv t path
  | checkConfig executable config => Cli.checkConfig srv t executable config
  | format c => formatFile srv disk t c

/-- The status of a program whose arguments make no sense. -/
def usageStatus : Nat := 2

/-- What is shown when the arguments make no sense. -/
def usageText : String :=
  "error: unrecognized arguments\n\nFor more information, try '--help'.\n"

/-- Run the program. -/
def run (srv : Services) (disk : Disk) (t : FileTree) (args : List String) :
    FileTree × Finished :=
  match read args with
  | .run command => command.run srv disk t
  | .print text => (t, .printed text)
  | .refuse => (t, { exit := usageStatus, stderr := usageText })

end SourceFormat.Cli
