import SourceFormat.Subprocess.Request

/-!
# Does the formatter accept an option file?

The formatter is run over a small fixed program with the option file in question.  It accepts the
file if it exits with code 0; if not, what it wrote to its standard error says why.
-/

namespace SourceFormat.Formatter

open Subprocess

/-- What a validation found. -/
inductive Acceptance where
  | valid
  /-- The formatter refused the file; `output` is its standard error, as it stands. -/
  | invalid (output : String)
  /-- A later validation took its place. -/
  | cancelled
  deriving Repr, DecidableEq

/-- Whether a validation found the file acceptable. -/
def Acceptance.isValid : Acceptance → Bool
  | valid => true
  | _ => false

namespace Validator

/-- The language of the program that is formatted. -/
def language : String := "JAVA"

/-- The program that is formatted. -/
def snippet : String :=
  "public class Uncrustify \x7bpublic static void main(String args[])\x7b"
    ++ "System.out.println(\"Hello Uncrustify!\");\x7d\x7d"

/-- The request that formats the program with an option file. -/
def request (executable config : Path) : Request :=
  ((((Request.ofPath executable).arg (Utf8.encode "-c")).arg config.bytes).addArgs
    [Utf8.encode "-l", Utf8.encode language]).withInput snippet

/-- What a finished run says about the option file. -/
def interpret (r : Result) : Acceptance :=
  if r.success then .valid else .invalid r.stderr

/-- What a run says about the option file, however it ended. -/
def acceptance : Except RunError Outcome → Except RunError Acceptance
  | .ok (.exited r) => .ok (interpret r)
  | .ok .cancelled => .ok .cancelled
  | .error e => .error e

end Validator

end SourceFormat.Formatter
