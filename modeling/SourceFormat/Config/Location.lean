import SourceFormat.Settings.Basic
import SourceFormat.Style.Store
import SourceFormat.Text.Quoted

/-!
# The option file of a run

Which option file a run uses is settled in three tiers: the project's own, `uncrustify.cfg` in the
project's root; then the one named in the settings; then one that is generated from the style and
removed behind the run.  A tier counts only if there is a regular file.

A generated file gets a fresh name in the directory for temporary files.
-/

namespace SourceFormat.Config

/-- The name of a project's own option file. -/
def projectFileName : String := "uncrustify.cfg"

/-- Where the option file of a run is. -/
inductive Location where
  | project (path : Path)
  | explicit (path : Path)
  /-- Generated for this run and removed behind it. -/
  | generated (path : Path)
  deriving Repr, DecidableEq

namespace Location

/-- The path of the option file. -/
def path : Location → Path
  | project p => p
  | explicit p => p
  | generated p => p

/-- Whether the option file was generated. -/
def isGenerated : Location → Bool
  | generated _ => true
  | _ => false

end Location

/-- The option file chosen for a run, and what its generation lost. -/
structure Resolved where
  location : Location
  warnings : List Style.LossyConversion := []
  deriving Repr, DecidableEq

/-- The project's own option file, if there is one. -/
def locateProject (t : FileTree) (root : Option Path) : Option Location :=
  root.bind fun root =>
    let candidate := root.join (Utf8.encode projectFileName)
    if t.isFile candidate then some (.project candidate) else none

/-- The option file named in the settings, if there is one. -/
def locateExplicit (t : FileTree) (s : Settings) : Option Location :=
  s.config.bind fun p => if !p.isEmpty && t.isFile p then some (.explicit p) else none

/-- The option file that is there without generating one. -/
def locate (t : FileTree) (root : Option Path) (s : Settings) : Option Location :=
  (locateProject t root).orElse fun _ => locateExplicit t s

/-! ## Generated files -/

/-- The varying part of the `n`th name: six digits. -/
def tag (n : Nat) : String :=
  let ds := Nat.toDigits 10 n
  String.ofList (List.replicate (6 - ds.length) '0' ++ ds)

/-- The `n`th name of a generated option file. -/
def generatedName (n : Nat) : Bytes :=
  Utf8.encode ("uncrustify-bridge" ++ tag n ++ ".cfg")

/-- The working directory, spelled from the root. -/
def here (t : FileTree) : Path :=
  if t.workingDirectory = [] then Path.ofString "/"
  else ⟨t.workingDirectory.flatMap fun name => Path.slash :: name⟩

/-- A directory, spelled from the root. -/
def absolute (t : FileTree) (directory : Path) : Path :=
  if directory.isAbsolute then directory
  else if directory.isEmpty then here t
  else (here t).join directory.bytes

/-- The first free name in a directory from the `n`th on; `fuel` bounds the search. -/
def freeName (t : FileTree) (directory : Path) : Nat → Nat → Path
  | 0, n => directory.join (generatedName n)
  | fuel + 1, n =>
    let path := directory.join (generatedName n)
    if t.existsAt path then freeName t directory fuel (n + 1) else path

/-- The path of the next generated option file: the first name that is free.  There are more names
to try than nodes in the tree. -/
def generatedPath (t : FileTree) (directory : Path) : Path :=
  freeName t (absolute t directory) (t.nodes.length + 1) 0

/-- Where generated files go: a directory, and what the system does with what is written there. -/
structure Storage extends Disk where
  directory : Path

instance : Coe Path Storage := ⟨fun directory => { directory }⟩

/-- Why no option file could be generated. -/
structure GenerateError where
  source : SystemError
  /-- The file that could not be created; none if it was created and could not be written. -/
  path : Option Path
  deriving Repr, DecidableEq

namespace GenerateError

/-- The text of the system's failure, with the file it is about. -/
def sourceText (e : GenerateError) : String :=
  match e.path with
  | some path => e.source.text ++ " at path " ++ Text.quote path.text
  | none => e.source.text

/-- The text of the error. -/
def message (e : GenerateError) : String :=
  "Failed to write generated config file: " ++ e.sourceText

end GenerateError

/-- Let go of an option file: a generated one is removed. -/
def release (t : FileTree) (r : Resolved) : FileTree :=
  match r.location with
  | .generated path => (t.removeFile path).toOption.getD t
  | _ => t

/-- Generate an option file from a style, in the directory for temporary files.  A file that cannot
be written to its end is removed again. -/
def generate (t : FileTree) (temporary : Storage) (style : Style) :
    FileTree × Except GenerateError Resolved :=
  let path := generatedPath t temporary.directory
  let resolved : Resolved := ⟨.generated path, style.exported.warnings⟩
  match t.writable path with
  | .error source => (t, .error ⟨source, some path⟩)
  | .ok _ =>
    match style.exported.file.save temporary.toDisk t path with
    | (written, .ok ()) => (written, .ok resolved)
    | (written, .error source) => (release written resolved, .error ⟨source, none⟩)

/-- Settle the option file of a run. -/
def resolve (t : FileTree) (temporary : Storage) (root : Option Path) (s : Settings)
    (style : Style) : FileTree × Except GenerateError Resolved :=
  match locate t root s with
  | some location => (t, .ok ⟨location, []⟩)
  | none => generate t temporary style

end SourceFormat.Config
