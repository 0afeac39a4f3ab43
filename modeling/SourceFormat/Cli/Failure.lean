/-!
# Failures as the program shows them

A failure has a text and the causes behind it, each with a text of its own.  All lines of a cause
are indented; several causes are numbered.
-/

namespace SourceFormat.Cli

/-- What went wrong, with its causes, nearest first. -/
structure Failure where
  message : String
  causes : List String := []
  deriving Repr, DecidableEq

namespace Failure

/-- A failure without causes. -/
def ofMessage (message : String) : Failure := { message }

/-- Put indentation behind every line end. -/
def indented (by_ : String) (text : String) : String :=
  String.join (text.toList.map fun c => if c = '\n' then "\n" ++ by_ else c.toString)

/-- A number, right-aligned. -/
def numbered (n : Nat) : String :=
  let digits := toString n
  "".pushn ' ' (5 - digits.length) ++ digits ++ ": "

/-- The lines of the causes. -/
def causeLines : List String → String
  | [] => ""
  | [cause] => "\n\nCaused by:\n    " ++ indented "    " cause
  | causes =>
    "\n\nCaused by:" ++ String.join (causes.zipIdx.map fun (cause, i) =>
      "\n" ++ numbered i ++ indented "       " cause)

/-- The text of a failure. -/
def render (f : Failure) : String :=
  "Error: " ++ f.message ++ causeLines f.causes ++ "\n"

end Failure

end SourceFormat.Cli
