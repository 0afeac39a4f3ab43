import SourceFormat.Path

/-!
# File trees

The part of a system that programs leave their marks on: directories and files by location, and the
working directory from which relative paths start.  A location is the list of names from the root;
the root itself is always a directory.

Besides plain files there are the devices that programs expect and the system's own utilities,
which can be run and hold no text.

What the program may read and write is settled by location as well.  So it is settled in the same
way for a file that is there and for one that comes about there later.
-/

namespace SourceFormat

/-- The names on the way from the root. -/
abbrev Location := List Bytes

/-- A device. -/
inductive Device where
  /-- Swallows what is written and has nothing to read. -/
  | null
  /-- Has zero bytes to read without end. -/
  | zero
  /-- Refuses what is written. -/
  | full
  deriving Repr, DecidableEq

/-- What is at a location. -/
inductive Node where
  | directory
  | file (contents : Bytes) (executable : Bool)
  | device (d : Device)
  /-- A program of the system, by its name. -/
  | utility (name : String)
  deriving Repr, DecidableEq

/-- Whether a node is a regular file. -/
def Node.isFile : Node → Bool
  | file _ _ => true
  | utility _ => true
  | _ => false

/-- A tree of files.  Of two entries for one location the first counts. -/
structure FileTree where
  nodes : List (Location × Node) := []
  workingDirectory : Location := []
  /-- What the program may not open for reading. -/
  unreadable : List Location := []
  /-- What the program may neither open for writing nor create. -/
  unwritable : List Location := []
  deriving Repr, DecidableEq

namespace FileTree

/-- What is at a location. -/
def node? (t : FileTree) (at_ : Location) : Option Node :=
  if at_ = [] then some .directory else (t.nodes.find? (·.1 = at_)).map (·.2)

/-- The tree with something else at a location. -/
def set (t : FileTree) (at_ : Location) (n : Node) : FileTree :=
  { t with nodes := (at_, n) :: t.nodes.filter (·.1 ≠ at_) }

/-- The tree with nothing at a location. -/
def unset (t : FileTree) (at_ : Location) : FileTree :=
  { t with nodes := t.nodes.filter (·.1 ≠ at_) }

/-- The names in a directory. -/
def names (t : FileTree) (at_ : Location) : List Bytes :=
  t.nodes.filterMap fun (l, _) =>
    match l.getLast? with
    | some name => if l.dropLast = at_ then some name else none
    | none => none

end FileTree

end SourceFormat
