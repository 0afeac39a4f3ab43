import SourceFormat.Host.Services

/-!
# The command line

A call is answered on a tree of files.  So what the call can reach is loaded into a tree, the call
is answered there, and the files that it changed are put back.

Processes run inside the library: programs are shell scripts, or utilities that the library knows.
-/

namespace SourceFormat

namespace Cli

/-- The files that a command reads or writes. -/
def Command.files : Command → List Path
  | exportStyle style output => style :: output.toList
  | checkExecutable _ => []
  | checkConfig _ config => [config]
  | format c => c.file :: (c.settings.toList ++ c.style.toList)

/-- The settings that a command runs with, as far as they can be read. -/
def Command.settings (t : FileTree) : Command → Settings
  | format c =>
    let settings := (loadSettings t c.settings).toOption.getD {}
    { settings with executable := c.executable.getD settings.executable }
  | checkExecutable path => { executable := path }
  | checkConfig executable _ => { executable }
  | exportStyle _ _ => {}

/-- The option files that a command may choose. -/
def Command.optionFiles (t : FileTree) : Command → List Path
  | format c =>
    ((rootOf c).map fun root => root.join (Utf8.encode Config.projectFileName)).toList
      ++ ((Command.format c).settings t).config.toList
  | _ => []

/-- The paths at which the program of a command may be. -/
def Command.programs (t : FileTree) (c : Command) : List Path :=
  let executable := (c.settings t).executable
  if executable.bytes.contains Path.slash then [executable]
  else Shell.searchPath.map fun d => (Path.ofString d).join executable.bytes

end Cli

namespace Main

/-- The tree with a directory and the directories on the way to it. -/
def withDirectory (t : FileTree) (p : Path) : FileTree :=
  (t.createDirectories (p.bytes.length + 1) p).toOption.getD t

/-- The tree with a file that may not be read. -/
def withLocked (t : FileTree) (p : Path) : FileTree :=
  match t.locate p with
  | .ok at_ => { t.set at_ (.file [] false) with unreadable := at_ :: t.unreadable }
  | .error _ => t

/-- The tree with a file.  What is there already stays. -/
def withFile (t : FileTree) (p : Path) (contents : Bytes) (executable : Bool) : FileTree :=
  match t.locate p with
  | .ok at_ => if (t.node? at_).isSome then t else t.set at_ (.file contents executable)
  | .error _ => t

/-- Whether a path leads to a directory on disk. -/
def isDirectory (p : Path) : IO Bool := do
  try (← IO.FS.realPath (if p.isEmpty then "." else p.text)).isDir
  catch _ => return false

/-- Whether a path leads to anything on disk. -/
def isThere (p : Path) : IO Bool := do
  try
    let _ ← (← IO.FS.realPath p.text).metadata
    return true
  catch _ => return false

/-- Load what a path leads to, with the directory that it is in. -/
def load (executable : Bool) (t : FileTree) (p : Path) : IO FileTree := do
  let parent := p.parent?.getD p
  let t := if ← isDirectory parent then withDirectory t parent else t
  if ← isDirectory p then return withDirectory t p
  try
    let contents ← IO.FS.readBinFile p.text
    return withFile t p contents.toList executable
  catch _ => return if ← isThere p then withLocked t p else t

/-- A location as a path from the root. -/
def spelled (at_ : Location) : Path := ⟨at_.flatMap fun name => Path.slash :: name⟩

/-- Put back what is not as it was. -/
def putBack (old new : FileTree) : IO Unit := do
  for (at_, node) in new.nodes.reverse do
    if old.node? at_ ≠ some node then
      match node with
      | .directory => IO.FS.createDirAll (spelled at_).text
      | .file contents _ => IO.FS.writeBinFile (spelled at_).text ⟨contents.toArray⟩
      | .device _ | .utility _ => pure ()

/-- The system around a call: its working directory, and where temporary files go. -/
def surroundings : IO Host.World := do
  let here ← IO.currentDir
  let temporary := Path.ofString ((← IO.getEnv "TMPDIR").getD "/tmp")
  let t := withDirectory Host.system (.ofString here.toString)
  let t := { t with workingDirectory := Host.location here.toString }
  let t := if ← isDirectory temporary then withDirectory t temporary else t
  return { files := t, temporary }

/-- Load what a call can reach. -/
def loadAll (t : FileTree) : Cli.Invocation → IO FileTree
  | .run c => do
    let t ← c.files.foldlM (load false) t
    let t ← (c.optionFiles t).foldlM (load false) t
    (c.programs t).foldlM (load true) t
  | _ => return t

end Main

end SourceFormat

open SourceFormat in
/-- Answer one call. -/
def main (args : List String) : IO UInt32 := do
  let world ← Main.surroundings
  let files ← Main.loadAll world.files (Cli.read args)
  let (after, x) := Cli.run world.services {} files args
  Main.putBack files after
  (← IO.getStdout).putStr x.stdout
  (← IO.getStderr).putStr x.stderr
  return UInt32.ofNat x.exit
