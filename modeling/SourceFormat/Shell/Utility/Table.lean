import SourceFormat.Shell.Utility.Calculation
import SourceFormat.Shell.Utility.Editing
import SourceFormat.Shell.Utility.Files

/-!
# The system's utilities

Every utility by its name.  `commandNames` are the ones that run other commands and are told by the
shell what to do; `names` are all that a system has.
-/

namespace SourceFormat.Shell.Utility

/-- A program that prints one line. -/
def saying (text : String) (_ : List Octets) : Act Nat := do
  let _ ← say (octets text ++ ['\n'])
  return 0

/-- A program that does nothing and ends with a status. -/
def ending (status : Nat) (_ : List Octets) : Act Nat := return status

/-- The utilities that stand on their own. -/
def table : List (String × (List Octets → Act Nat)) :=
  [("[", test true), ("basename", basename), ("cat", cat), ("chmod", chmod), ("cp", cp),
   ("cut", cut), ("dirname", dirname), ("echo", echo), ("egrep", grep true), ("expr", expr),
   ("false", ending 1), ("grep", grep false), ("head", head), ("ls", ls), ("mkdir", mkdir),
   ("mv", mv), ("od", od), ("printenv", printenv), ("printf", printf), ("rev", rev), ("rm", rm),
   ("rmdir", rmdir), ("sed", sed), ("seq", seq), ("sleep", sleep), ("sort", sort),
   ("sync", ending 0), ("tac", tac), ("tail", tail), ("tee", tee), ("test", test false),
   ("touch", touch), ("tr", tr), ("true", ending 0), ("uname", saying "Linux"), ("uniq", uniq),
   ("wc", wc), ("whoami", saying "root"), ("yes", yes)]

/-- A utility by its name. -/
def find? (name : String) : Option (List Octets → Act Nat) :=
  (table.find? (·.1 = name)).map (·.2)

/-- The programs that are shells. -/
def shellNames : List String := ["sh", "dash", "bash"]

/-- The utilities that run another command. -/
def commandNames : List String := ["env", "nohup", "nice"]

/-- Everything that a system has. -/
def names : List String := table.map (·.1) ++ shellNames ++ commandNames ++ ["pwd", "kill"]

end SourceFormat.Shell.Utility
