import SourceFormat.Files.Tree
import SourceFormat.Shell.Utility.Table

/-!
# A plain system

The tree that every system begins with: the directories for programs, the devices, and the
utilities.
-/

namespace SourceFormat.Host

/-- The location that a path from the root spells. -/
def location (path : String) : Location :=
  (Path.cut (Utf8.encode path)).filter (· ≠ [])

/-- The directories. -/
def directories : List String :=
  ["/bin", "/dev", "/etc", "/root", "/tmp", "/usr", "/usr/bin", "/usr/local", "/usr/local/bin",
   "/var", "/var/tmp"]

/-- The devices. -/
def devices : List (String × Device) :=
  [("/dev/null", .null), ("/dev/zero", .zero), ("/dev/full", .full)]

/-- The directories that hold the utilities. -/
def utilityDirectories : List String := ["/usr/bin", "/bin"]

/-- The tree of a system on which nobody has done anything yet. -/
def system : FileTree :=
  let programs := utilityDirectories.flatMap fun d =>
    Shell.Utility.names.map fun name => (location (d ++ "/" ++ name), Node.utility name)
  { nodes := directories.map (fun d => (location d, .directory))
      ++ devices.map (fun (p, d) => (location p, .device d)) ++ programs }

end SourceFormat.Host
