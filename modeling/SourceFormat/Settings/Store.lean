import SourceFormat.Files.Disk
import SourceFormat.Settings.Snapshot

/-!
# The settings store

A store keeps settings in one file.  A file that is not there reads as the stock settings; any other
failure to read it is reported and never taken for that.  Saving works in three steps, in this
order: the text is made, the directories are created, the file is written.  So settings that have no
text leave no trace, and a directory that cannot be created leaves the file as it was.  A file that
can be opened and not be written to its end holds a beginning of the text.
-/

namespace SourceFormat.Settings

/-- What can go wrong with a store. -/
inductive StoreError where
  /-- The file could not be reached. -/
  | access (path : Path) (source : SystemError)
  /-- The file holds no settings. -/
  | parse (document : String) (reason : Toml.ReadError)
  /-- The settings have no text. -/
  | unwritable
  deriving Repr, DecidableEq

namespace StoreError

/-- The text of the failure behind an error. -/
def sourceText : StoreError → String
  | access _ source => source.text
  | parse document reason => reason.render document
  | unwritable => unwritableText

/-- The text of an error. -/
def message (e : StoreError) : String :=
  match e with
  | access path _ => "Failed to access settings file " ++ path.text ++ ": " ++ e.sourceText
  | parse _ _ => "Invalid settings: " ++ e.sourceText
  | unwritable => "Failed to serialize settings: " ++ e.sourceText

end StoreError

/-- Read settings that are expected in a document. -/
def parseStored (document : String) : Except StoreError Settings :=
  match parse document with
  | .ok s => .ok s
  | .error reason => .error (.parse document reason)

/-- The settings kept at a path. -/
def load (t : FileTree) (p : Path) : Except StoreError Settings :=
  match t.readText p with
  | .ok document => parseStored document
  | .error e => if e = .notFound then .ok {} else .error (.access p e)

/-- Create the directories that the file of a store lies in.  The tree is returned with those that
were created, also if the last of them was not. -/
def prepare (t : FileTree) (p : Path) : FileTree × Except SystemError Unit :=
  match p.parent? with
  | none => (t, .ok ())
  | some directory =>
    if directory.isEmpty then (t, .ok ())
    else FileTree.makeDirectories (directory.bytes.length + 1) t directory

/-- Keep settings at a path.  The tree is returned with every change that was made, also by a save
that failed. -/
def save (disk : Disk) (t : FileTree) (p : Path) (s : Settings) :
    FileTree × Except StoreError Unit :=
  match s.write? with
  | none => (t, .error .unwritable)
  | some text =>
    match prepare t p with
    | (t, .error e) => (t, .error (.access p e))
    | (t, .ok ()) =>
      match t.save disk p (Utf8.encode text) with
      | (t, .error e) => (t, .error (.access p e))
      | (t, .ok ()) => (t, .ok ())

end SourceFormat.Settings
