import SourceFormat.Files.Disk
import SourceFormat.OptionFile.Sink
import SourceFormat.Style.Export
import SourceFormat.Style.Snapshot

/-!
# Styles and option files on disk

A style is read from a file, and an option file is written to one.
-/

namespace SourceFormat

namespace Style

/-- Why a file is no style. -/
inductive LoadError where
  | access (path : Path) (source : SystemError)
  | parse (document : String) (reason : Toml.ReadError)
  deriving Repr, DecidableEq

namespace LoadError

/-- The text of the failure behind an error. -/
def sourceText : LoadError → String
  | access _ source => source.text
  | parse document reason => reason.render document

/-- The text of an error. -/
def message (e : LoadError) : String :=
  match e with
  | access path _ => "Failed to read style settings from '" ++ path.text ++ "': " ++ e.sourceText
  | parse _ _ => invalidText e.sourceText

end LoadError

/-- Read a style that is expected in a document. -/
def parseLoaded (document : String) : Except LoadError Style :=
  match parse document with
  | .ok s => .ok s
  | .error reason => .error (.parse document reason)

/-- The style in a file. -/
def load (t : FileTree) (p : Path) : Except LoadError Style :=
  match t.readText p with
  | .ok document => parseLoaded document
  | .error e => .error (.access p e)

end Style

namespace OptionFile

/-- Write an option file to an empty file and ask the system to keep it: the answer, and what the
file holds then. -/
def writeOut (f : OptionFile) (disk : Disk) : Except SystemError Unit × Bytes :=
  let (answer, sink) := f.writeTo disk.sink
  (answer.bind fun () => disk.sync, sink.held)

/-- Write an option file to a path, in the place of what was there, and ask the system to keep it. -/
def save (disk : Disk) (t : FileTree) (p : Path) (f : OptionFile) :
    FileTree × Except SystemError Unit :=
  t.overwrite disk p f.writeOut

end OptionFile

end SourceFormat
