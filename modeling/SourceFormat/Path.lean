import SourceFormat.Text.Utf8

/-!
# Paths

A path is a string of bytes, cut into components at `/`.  Empty components and components `.` say
nothing, with one exception: a `.` at the very beginning of a relative path is kept, so that
`./a.c` and `a.c` are different paths although they name the same file.  Components `..` are kept
everywhere.  Two paths are *the same document* when their components agree, which is what
`Path.key` decides; the spelling itself is kept for messages and for the system.
-/

namespace SourceFormat

/-- A path, as it was spelled. -/
structure Path where
  bytes : Bytes
  deriving Repr, DecidableEq, Inhabited

namespace Path

/-- The byte `/`. -/
def slash : UInt8 := 0x2F

/-- The byte `.`. -/
def dot : UInt8 := 0x2E

/-- The path that a text spells. -/
def ofString (s : String) : Path := ⟨Utf8.encode s⟩

/-- The path as shown to a reader. -/
def text (p : Path) : String := Utf8.decode p.bytes

/-- The path as a text, if it is one. -/
def text? (p : Path) : Option String := Utf8.decode? p.bytes

/-- Whether the path is the empty string. -/
def isEmpty (p : Path) : Bool := p.bytes.isEmpty

/-- Whether the path starts at the root. -/
def isAbsolute (p : Path) : Bool := p.bytes.head? = some slash

/-- One component. -/
inductive Component where
  /-- The root, at the beginning of an absolute path. -/
  | root
  /-- A `.` at the beginning of a relative path. -/
  | here
  /-- `..` -/
  | up
  /-- A name. -/
  | name (bytes : Bytes)
  deriving Repr, DecidableEq

/-- Cut at every `/`.  There is always at least one piece. -/
def cut : Bytes → List Bytes
  | [] => [[]]
  | b :: rest =>
    if b = slash then [] :: cut rest
    else match cut rest with
      | [] => [[b]]
      | piece :: pieces => (b :: piece) :: pieces

/-- What a piece between slashes says, away from the beginning of a relative path. -/
def Component.ofPiece? (piece : Bytes) : Option Component :=
  if piece = [] ∨ piece = [dot] then none
  else if piece = [dot, dot] then some .up
  else some (.name piece)

/-- The components of a path. -/
def components (p : Path) : List Component :=
  if p.isAbsolute then .root :: (cut p.bytes).filterMap Component.ofPiece?
  else
    match cut p.bytes with
    | [] => []
    | first :: rest =>
      (if first = [dot] then [.here] else (Component.ofPiece? first).toList)
        ++ rest.filterMap Component.ofPiece?

/-- What documents are told apart by. -/
abbrev Key := List Component

/-- The key of the document at a path. -/
def key (p : Path) : Key := p.components

/-- The last component, if it is a name. -/
def fileName? (p : Path) : Option Bytes :=
  match p.components.getLast? with
  | some (.name bytes) => some bytes
  | _ => none

/-- Cut a name at its last dot: the part before it and the part behind it. -/
def cutAtLastDot (name : Bytes) : Option (Bytes × Bytes) :=
  let behind := name.reverse.takeWhile (· ≠ dot)
  match name.reverse.dropWhile (· ≠ dot) with
  | [] => none
  | _ :: before => some (before.reverse, behind.reverse)

/-- What follows the last dot of the file name.  A name whose only dot is its first byte has no
extension. -/
def extension? (p : Path) : Option Bytes := do
  let (stem, extension) ← cutAtLastDot (← p.fileName?)
  if stem.isEmpty then none else some extension

/-- Drop whole pieces from the end as long as they say nothing; `keep` is the number of bytes at the
beginning that are not looked at.  The list is the path backwards. -/
def trimEnd (keep : Nat) : Nat → Bytes → Bytes
  | 0, rev => rev
  | fuel + 1, rev =>
    let body := rev.take (rev.length - keep)
    if body.isEmpty then rev
    else
      let piece := body.takeWhile (· ≠ slash)
      if (Component.ofPiece? piece.reverse).isSome then rev
      else trimEnd keep fuel (rev.drop (min body.length (piece.length + 1)))

/-- The path without its last component; none if there is nothing before one, as for the root and
the empty path.  A single relative component leaves the empty path. -/
def parent? (p : Path) : Option Path :=
  let keep :=
    if p.isAbsolute then 1
    else if p.components.head? = some .here then 1 else 0
  match p.components.getLast? with
  | none | some .root => none
  | some .here => some ⟨[]⟩
  | some _ =>
    let rev := trimEnd keep p.bytes.length p.bytes.reverse
    let body := rev.take (rev.length - keep)
    let piece := body.takeWhile (· ≠ slash)
    let rest := rev.drop (min body.length (piece.length + 1))
    some ⟨(trimEnd keep rest.length rest).reverse⟩

/-- A file name in a directory.  The name is put behind a slash, unless the directory ends in one or
is the empty path. -/
def join (directory : Path) (name : Bytes) : Path :=
  if directory.isEmpty ∨ directory.bytes.getLast? = some slash then ⟨directory.bytes ++ name⟩
  else ⟨directory.bytes ++ slash :: name⟩

end Path

end SourceFormat
