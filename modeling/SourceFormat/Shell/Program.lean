import SourceFormat.Subprocess.Request
import SourceFormat.Shell.Interpreter

/-!
# Launching programs

A process is launched from an executable and arguments.  An executable without a slash is searched
in a few directories; a file is run by the program that its first line names.  What keeps a process
from being launched is told apart as the system tells it apart, because the texts of these failures
reach the user.
-/

namespace SourceFormat.Shell

open Subprocess (Behaviour Ending Request)

/-- The directories that are searched for an executable. -/
def searchPath : List String := ["/usr/local/bin", "/usr/bin", "/bin"]

/-- How many programs may stand between a file and the one that runs it in the end. -/
def maxInterpreters : Nat := 5

/-- The node at a path, if it can be run.  A file without a first line that names a program is no
program by itself. -/
def runnable (t : FileTree) : Nat → Path → Except SystemError Node
  | 0, _ => .error (.os 40)
  | depth + 1, p =>
    match t.find p with
    | .error e => .error e
    | .ok (_, node) =>
      match node with
      | .utility _ => .ok node
      | .file contents true =>
        match interpreterOf contents with
        | none => .error .notExecutable
        | some (program, _) => (runnable t depth (pathOf program)).map fun _ => node
      | _ => .error .denied

/-- The first of some directories that has a program of a name.  A program that may not be run does
not end the search, but it is what the failure is about. -/
def searched (t : FileTree) (name : Bytes) (refused : Bool) :
    List String → Except SystemError (Path × Node)
  | [] => .error (if refused then .denied else .notFound)
  | d :: ds =>
    let path := (⟨Utf8.encode d⟩ : Path).join name
    match runnable t maxInterpreters path with
    | .ok node => .ok (path, node)
    | .error e =>
      if e = .denied then searched t name true ds
      else if e = .notFound ∨ e = .notDirectory then searched t name refused ds
      else .error e

/-- The program of an executable. -/
def programFor (t : FileTree) (executable : Path) : Except SystemError (Path × Node) :=
  if executable.bytes.contains Path.slash then
    (runnable t maxInterpreters executable).map fun node => (executable, node)
  else searched t executable.bytes false searchPath

/-- The shell in which a program runs that was launched from outside: it has the given variables,
all of which it hands on. -/
def surroundings (t : FileTree) (bindings : List (String × Bytes)) : Shell :=
  let bindings := bindings.map fun (name, value) => (octets name, ofBytes value)
  { name := []
    bindings
    exported := bindings.map (·.1)
    workingDirectory := t.workingDirectory }

/-- Launch a process. -/
def launch (t : FileTree) (bindings : List (String × Bytes)) (r : Request) :
    Except SystemError Behaviour :=
  if r.executable.bytes.contains 0 || r.args.any (·.contains 0) then .error .nulInRequest
  else
    match programFor t r.executable with
    | .error e => .error e
    | .ok (path, node) =>
      let called := ofBytes r.executable.bytes
      let act := runNode endless called (ofBytes path.bytes) node (r.args.map ofBytes)
      .ok (act.behaviour { surroundings t bindings with name := called })

end SourceFormat.Shell
