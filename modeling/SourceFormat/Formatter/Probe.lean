import SourceFormat.Formatter.Version
import SourceFormat.Subprocess.Request
import SourceFormat.Text.Blank
import SourceFormat.Text.Quoted

/-!
# Is this the formatter?

A path is taken for the formatter if, asked for its version, it exits with code 0 and names a
version on its standard output.  Everything else is a reason against it.
-/

namespace SourceFormat.Formatter

open Subprocess

/-- Why a path is not taken for the formatter. -/
inductive Unfit where
  /-- It could not be launched. -/
  | spawnFailed (reason : String)
  /-- Its run failed in another way. -/
  | processFailed (reason : String)
  | nonZeroExit (exitCode : Int)
  | unrecognizedVersion (output : String)
  deriving Repr, DecidableEq

namespace Unfit

/-- The text of a reason. -/
def message : Unfit → String
  | spawnFailed reason => "cannot be launched: " ++ reason
  | processFailed reason => "failed: " ++ reason
  | nonZeroExit exitCode => "exited with code " ++ toString exitCode
  | unrecognizedVersion output =>
    "unrecognized version output " ++ Text.quote (Text.trim output)

/-- The reason that a failed run gives. -/
def ofRunError (e : RunError) : Unfit :=
  if e.isSpawnFailure then .spawnFailed e.message else .processFailed e.message

end Unfit

/-- What a verification found. -/
inductive Verdict where
  | valid (version : Version)
  | invalid (reason : Unfit)
  /-- A later verification took its place. -/
  | cancelled
  deriving Repr, DecidableEq

/-- Whether a verification found the formatter. -/
def Verdict.isValid : Verdict → Bool
  | valid _ => true
  | _ => false

namespace Probe

/-- The request that asks a path for its version. -/
def request (path : Path) : Request :=
  (Request.ofPath path).arg (Utf8.encode "--version")

/-- What a finished run says about the path. -/
def interpret (r : Result) : Except Unfit Version :=
  if r.success then
    match Version.parse? r.stdout with
    | some version => .ok version
    | none => .error (.unrecognizedVersion r.stdout)
  else .error (.nonZeroExit r.exitCode)

/-- What a run says about the path, however it ended. -/
def verdict : Except RunError Outcome → Verdict
  | .ok (.exited r) =>
    match interpret r with
    | .ok version => .valid version
    | .error reason => .invalid reason
  | .ok .cancelled => .cancelled
  | .error e => .invalid (.ofRunError e)

end Probe

end SourceFormat.Formatter
