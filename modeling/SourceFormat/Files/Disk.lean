import SourceFormat.Files.Access
import SourceFormat.Files.Sink

/-!
# Files on disk

A file is written in two steps.  It is opened, which cuts it to nothing; then the bytes are handed to
the system, which may take them in parts, or a part of them only.  An opening that is refused leaves
everything as it was.  Behind a failure of the second step the file holds what was taken until then.
-/

namespace SourceFormat

/-- What the system does with the bytes that are written to a file.  A file may find room for a part
only, and a system may fail when it is asked to keep what it took. -/
structure Disk where
  /-- How many bytes a file finds room for, if there is a limit. -/
  room : Option Nat := none
  /-- How many bytes the system takes at once, call by call. -/
  stride : Nat → Nat := fun _ => 4096
  /-- The failure by which it refuses the rest. -/
  refusal : SystemError := .os 28
  /-- Its answer when it is asked to keep the file. -/
  sync : Except SystemError Unit := .ok ()

namespace Disk

/-- An empty file there. -/
def sink (d : Disk) : Sink := { room := d.room, stride := d.stride, refusal := some d.refusal }

/-- What the system does with the bytes that are written to what was there.  A device has ways of
its own, and cannot be asked to keep anything. -/
def under (d : Disk) : Option Node → Disk
  | some (.device .full) => { room := some 0, sync := .error (.os 22) }
  | some (.device _) => { sync := .error (.os 22) }
  | _ => d

/-- Hand bytes to an empty file: the answer, and what the file holds then. -/
def writeAll (d : Disk) (bs : Bytes) : Except SystemError Unit × Bytes :=
  let (left, sink) := d.sink.offerAll bs
  (sink.report left Sink.unwritten, sink.held)

end Disk

namespace FileTree

/-- Open a path for writing and put there what a writer leaves in an empty file.  The tree is
returned with every change that was made, also by an attempt that failed. -/
def overwrite (t : FileTree) (disk : Disk) (p : Path)
    (writer : Disk → Except SystemError Unit × Bytes) : FileTree × Except SystemError Unit :=
  match t.writable p with
  | .error e => (t, .error e)
  | .ok (at_, old) =>
    let (answer, held) := writer (disk.under old)
    match t.store at_ old held with
    | .error e => (t, .error e)
    | .ok t => (t, answer)

/-- Write bytes to a path, in the place of what was there. -/
def save (t : FileTree) (disk : Disk) (p : Path) (bs : Bytes) :
    FileTree × Except SystemError Unit :=
  t.overwrite disk p (·.writeAll bs)

end FileTree

end SourceFormat
