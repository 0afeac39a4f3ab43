import SourceFormat.Files.Tree
import SourceFormat.SystemError

/-!
# Reaching files by their paths

A path is walked name by name.  Every name but the last must lead to a directory; a path that ends
in a slash, or in `/.`, must lead to one as well.  What goes wrong on the way is told apart as the
system tells it apart, because the texts of these failures reach the user.
-/

namespace SourceFormat

/-- The bytes that are read from a node.  A device that never ends is read until there is no memory
for more of it, and a utility is no text. -/
def Node.contents : Node → Except SystemError Bytes
  | .file contents _ => .ok contents
  | .directory => .error .isDirectory
  | .device .null => .ok []
  | .device .zero | .device .full => .error .outOfMemory
  | .utility _ => .error .notText

namespace FileTree

/-- The longest name that the system takes. -/
def maxNameLength : Nat := 255

/-- The longest path that the system takes, its closing NUL byte counted. -/
def maxPathLength : Nat := 4096

/-- Walk over the pieces of a path.  Every place that is left again must be a directory, so whatever
the walk ends at lies in one. -/
def walk (t : FileTree) : Location → List Bytes → Except SystemError Location
  | here, [] => .ok here
  | here, piece :: rest =>
    match t.node? here with
    | none => .error .notFound
    | some .directory =>
      if piece = [] ∨ piece = [Path.dot] then walk t here rest
      else if piece = [Path.dot, Path.dot] then walk t here.dropLast rest
      else if maxNameLength < piece.length then .error .nameTooLong
      else walk t (here ++ [piece]) rest
    | some _ => .error .notDirectory

/-- The location that a path leads to; there need not be anything. -/
def locate (t : FileTree) (p : Path) : Except SystemError Location :=
  if p.bytes.contains 0 then .error .nulInPath
  else if p.isEmpty then .error .notFound
  else if maxPathLength ≤ p.bytes.length then .error .nameTooLong
  else t.walk (if p.isAbsolute then [] else t.workingDirectory) (Path.cut p.bytes)

/-- What a path leads to, with its location. -/
def find (t : FileTree) (p : Path) : Except SystemError (Location × Node) := do
  let at_ ← t.locate p
  match t.node? at_ with
  | some n => .ok (at_, n)
  | none => .error .notFound

/-- Whether a path leads to anything. -/
def existsAt (t : FileTree) (p : Path) : Bool :=
  (t.find p).toOption.isSome

/-- Whether a path leads to a regular file. -/
def isFile (t : FileTree) (p : Path) : Bool :=
  match t.find p with
  | .ok (_, n) => n.isFile
  | .error _ => false

/-- Whether a path leads to a directory. -/
def isDirectory (t : FileTree) (p : Path) : Bool :=
  match t.find p with
  | .ok (_, n) => n = .directory
  | .error _ => false

/-- What a file holds, whoever may read it. -/
def contents (t : FileTree) (p : Path) : Except SystemError Bytes := do
  (← t.find p).2.contents

/-- The contents of a file that the program may read. -/
def read (t : FileTree) (p : Path) : Except SystemError Bytes := do
  let (at_, n) ← t.find p
  if at_ ∈ t.unreadable then .error .denied else n.contents

/-- The contents of a file that the program may read and that is text. -/
def readText (t : FileTree) (p : Path) : Except SystemError String := do
  match Utf8.decode? (← t.read p) with
  | some text => .ok text
  | none => .error .notText

/-- Whether a path asks for a directory by the way it ends. -/
def asksForDirectory (p : Path) : Bool :=
  p.bytes.getLast? = some Path.slash

/-- A path without the slashes at its end. -/
def dropTrailingSlashes (p : Path) : Path :=
  ⟨(p.bytes.reverse.dropWhile (· = Path.slash)).reverse⟩

/-- The location of a file that is about to be written, with what is there so far.  A path that asks
for a directory never leads to a file. -/
def writable (t : FileTree) (p : Path) : Except SystemError (Location × Option Node) :=
  if asksForDirectory p then
    if (dropTrailingSlashes p).isEmpty then .error .isDirectory
    else
      match t.locate (dropTrailingSlashes p) with
      | .error e => .error e
      | .ok _ => .error .isDirectory
  else
    match t.locate p with
    | .error e => .error e
    | .ok at_ =>
      match t.node? at_ with
      | some .directory => .error .isDirectory
      | old => if at_ ∈ t.unwritable then .error .denied else .ok (at_, old)

/-- Store contents at a location that can be written. -/
def store (t : FileTree) (at_ : Location) (old : Option Node) (contents : Bytes) :
    Except SystemError FileTree :=
  match old with
  | none => .ok (t.set at_ (.file contents false))
  | some (.file _ executable) => .ok (t.set at_ (.file contents executable))
  | some (.device .full) => if contents.isEmpty then .ok t else .error (.os 28)
  | some (.device _) => .ok t
  | some (.utility _) => .error (.os 26)
  | some .directory => .error .isDirectory

/-- Write a file, in the place of what it held.  A file that was executable stays so. -/
def write (t : FileTree) (p : Path) (contents : Bytes) : Except SystemError FileTree := do
  let (at_, old) ← t.writable p
  t.store at_ old contents

/-- Write behind what a file holds. -/
def append (t : FileTree) (p : Path) (contents : Bytes) : Except SystemError FileTree := do
  let (at_, old) ← t.writable p
  match old with
  | some (.file before _) => t.store at_ old (before ++ contents)
  | _ => t.store at_ old contents

/-- Create one directory in a directory that is there. -/
def createDirectory (t : FileTree) (p : Path) : Except SystemError FileTree := do
  let at_ ← t.locate (if p.bytes.all (· = Path.slash) then p else dropTrailingSlashes p)
  match t.node? at_ with
  | some _ => .error .fileExists
  | none => if at_ ∈ t.unwritable then .error .denied else .ok (t.set at_ .directory)

/-- Create a directory and every directory on the way to it.  What is there already may stay if it
is a directory.  The tree is returned with every directory that was created, also by an attempt that
failed.  `fuel` bounds the number of directories. -/
def makeDirectories : Nat → FileTree → Path → FileTree × Except SystemError Unit
  | 0, t, _ => (t, .error .notFound)
  | fuel + 1, t, p =>
    if p.isEmpty then (t, .ok ())
    else
      match t.createDirectory p with
      | .ok t => (t, .ok ())
      | .error e =>
        if e = .notFound then
          match p.parent? with
          | none => (t, .error (.other "failed to create whole tree"))
          | some parent =>
            match makeDirectories fuel t parent with
            | (t, .error e) => (t, .error e)
            | (t, .ok ()) =>
              match t.createDirectory p with
              | .ok t => (t, .ok ())
              | .error e => (t, if t.isDirectory p then .ok () else .error e)
        else (t, if t.isDirectory p then .ok () else .error e)

/-- The tree with a directory and every directory on the way to it. -/
def createDirectories (fuel : Nat) (t : FileTree) (p : Path) : Except SystemError FileTree :=
  let (t, answer) := makeDirectories fuel t p
  answer.map fun () => t

/-- Remove a file. -/
def removeFile (t : FileTree) (p : Path) : Except SystemError FileTree := do
  let (at_, n) ← t.find p
  if n = .directory then .error .isDirectory else .ok (t.unset at_)

end FileTree

end SourceFormat
