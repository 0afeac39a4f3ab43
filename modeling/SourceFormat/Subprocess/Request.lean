import SourceFormat.Duration
import SourceFormat.Path
import SourceFormat.SystemError

/-!
# Requests to run a process

A request names an executable and its arguments, the text for its standard input, if it gets one,
and how long it may take.  A run that comes to an end of its own has a `Result`, whatever its exit
code; what goes wrong otherwise is a `RunError`.
-/

namespace SourceFormat.Subprocess

/-- A request to run a process once. -/
structure Request where
  executable : Path
  args : List Bytes := []
  /-- The text for standard input, which is closed behind it. -/
  input : Option String := none
  timeout : Option Duration := none
  deriving Repr, DecidableEq

namespace Request

/-- A request without arguments, input or limit. -/
def ofPath (executable : Path) : Request := { executable }

/-- Add an argument behind those already there. -/
def arg (r : Request) (a : Bytes) : Request := { r with args := r.args ++ [a] }

/-- Add arguments behind those already there. -/
def addArgs (r : Request) (as : List Bytes) : Request := { r with args := r.args ++ as }

/-- Set the text for standard input. -/
def withInput (r : Request) (text : String) : Request := { r with input := some text }

/-- Set or lift the limit. -/
def withTimeout (r : Request) (timeout : Option Duration) : Request := { r with timeout }

end Request

/-- What a process left behind that came to an end of its own. -/
structure Result where
  /-- The exit code; -1 for a process that a signal ended. -/
  exitCode : Int
  stdout : String
  stderr : String
  deriving Repr, DecidableEq

/-- Whether the process succeeded. -/
def Result.success (r : Result) : Bool := r.exitCode = 0

/-- How a started run ended. -/
inductive Outcome where
  | exited (result : Result)
  /-- It was cancelled; what it had written is lost. -/
  | cancelled
  deriving Repr, DecidableEq

/-- Why a run has no outcome. -/
inductive RunError where
  | emptyExecutable
  | alreadyStarted
  /-- The system could not launch the executable. -/
  | spawn (executable : Path) (source : SystemError)
  | inputWrite (source : SystemError)
  | capture (source : SystemError)
  | wait (source : SystemError)
  | timedOut (limit : Duration)
  deriving Repr, DecidableEq

namespace RunError

/-- The text of an error. -/
def message : RunError → String
  | emptyExecutable => "Executable path is empty"
  | alreadyStarted => "Process session was already started"
  | spawn executable source =>
    "Failed to launch '" ++ executable.text ++ "': " ++ source.text
  | inputWrite source => "Failed to write input to the process: " ++ source.text
  | capture source => "Failed to capture process output: " ++ source.text
  | wait source => "Failed to wait for the process: " ++ source.text
  | timedOut limit => "Process did not finish within " ++ limit.text

/-- The system's failure behind an error. -/
def source? : RunError → Option SystemError
  | spawn _ source => some source
  | inputWrite source => some source
  | capture source => some source
  | wait source => some source
  | emptyExecutable | alreadyStarted | timedOut _ => none

/-- Whether the executable never ran. -/
def isSpawnFailure : RunError → Bool
  | emptyExecutable | spawn _ _ => true
  | _ => false

end RunError

/-- Only a request that names an executable can be run. -/
def Request.validate (r : Request) : Except RunError Unit :=
  if r.executable.isEmpty then .error .emptyExecutable else .ok ()

end SourceFormat.Subprocess
