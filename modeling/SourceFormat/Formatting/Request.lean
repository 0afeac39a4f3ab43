import SourceFormat.Subprocess.Request
import SourceFormat.Settings.Basic

/-!
# Documents to format and what becomes of them

A formatting request holds a document's name and text; the formatter picks the language by the name.
Its outcome is the formatted text, an error, or nothing because something newer took its place.
What the formatter wrote to its standard error is never part of an outcome.
-/

namespace SourceFormat.Formatting

open Subprocess

/-- A document handed to the formatter. -/
structure Request where
  fileName : Path
  text : String
  /-- The directory that is searched for an option file of the project. -/
  projectRoot : Option Path := none
  deriving Repr, DecidableEq

/-- Why a document was not formatted. -/
inductive Error where
  /-- The formatter could not be run. -/
  | general (reason : String)
  | nonZeroExit (exitCode : Int)
  deriving Repr, DecidableEq

namespace Error

/-- The title under which every error is shown. -/
def title : String := "Uncrustify formatting failed"

/-- The text of an error. -/
def message : Error → String
  | general reason => "Uncrustify could not be run: " ++ reason
  | nonZeroExit exitCode => "Uncrustify exited with code " ++ toString exitCode

end Error

/-- What became of a request. -/
inductive Outcome where
  /-- The formatter's standard output, as it stands. -/
  | completed (text : String)
  | failed (error : Error)
  | cancelled
  deriving Repr, DecidableEq

/-- The process that formats a document with a given option file. -/
def Request.process (r : Request) (s : Settings) (config : Path) : Subprocess.Request :=
  (((((Subprocess.Request.ofPath s.executable).arg (Utf8.encode "-c")).arg config.bytes).arg
    (Utf8.encode "--assume")).arg r.fileName.bytes).withInput r.text |>.withTimeout s.timeout

/-- What the end of the process makes of the request. -/
def Outcome.ofRun : Except RunError Subprocess.Outcome → Outcome
  | .ok (.exited r) =>
    if r.success then .completed r.stdout else .failed (.nonZeroExit r.exitCode)
  | .ok .cancelled => .cancelled
  | .error e => .failed (.general e.message)

end SourceFormat.Formatting
