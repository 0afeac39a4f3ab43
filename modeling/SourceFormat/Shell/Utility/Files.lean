import SourceFormat.Shell.Utility.Streams

/-!
# Utilities that work on the file tree

They make, remove, move and copy files and directories, list them, and take paths apart.
-/

namespace SourceFormat.Shell.Utility

/-- A name between quotes. -/
def inQuotes (cs : Octets) : Octets := '\'' :: cs ++ ['\'']

/-- A complaint of a utility about what it could not do to a file. -/
def blameFor (what : String) (file : Octets) (e : SystemError) : Act Unit :=
  complain (octets what ++ [' '] ++ inQuotes file ++ octets ": " ++ reason e)

/-- Do something for each of some operands, and complain where it fails: 1 if it ever did. -/
def forEach (what : String) (f : Octets → FileTree → Except SystemError FileTree) :
    List Octets → Act Nat
  | [] => return 0
  | a :: rest => do
    let here ←
      match ← change (f a) with
      | .ok () => pure 0
      | .error e => do
        blameFor what a e
        pure 1
    return max here (← forEach what f rest)

/-- Create directories; with `-p` also the ones on the way, and what is there may stay. -/
def mkdir (args : List Octets) : Act Nat := do
  let (os, operands) := optionsOf "m" args
  forEach "mkdir: cannot create directory"
    (fun a t =>
      if given os 'p' then t.createDirectories (a.length + 1) (pathOf a)
      else t.createDirectory (pathOf a))
    operands

/-- Whether a directory has anything in it. -/
def isEmptyAt (t : FileTree) (at_ : Location) : Bool := (t.names at_).isEmpty

/-- Remove empty directories. -/
def rmdir (args : List Octets) : Act Nat := do
  let (_, operands) := optionsOf "" args
  forEach "rmdir: failed to remove"
    (fun a t => do
      let (at_, n) ← t.find (pathOf a)
      if n ≠ .directory then .error .notDirectory
      else if !isEmptyAt t at_ then .error .notEmpty
      else .ok (t.unset at_))
    operands

/-- A tree without what is at a location and below it. -/
def without (t : FileTree) (at_ : Location) : FileTree :=
  { t with nodes := t.nodes.filter fun (l, _) => !at_.isPrefixOf l }

/-- Remove files; with `-r` also directories with all that is in them. -/
def rm (args : List Octets) : Act Nat := do
  let (os, operands) := optionsOf "" args
  let force := given os 'f'
  let deep := given os 'r' || given os 'R'
  forEach "rm: cannot remove"
    (fun a t =>
      match t.find (pathOf a) with
      | .error e => if force then .ok t else .error e
      | .ok (at_, n) =>
        if n = .directory then (if deep then .ok (without t at_) else .error .isDirectory)
        else .ok (t.unset at_))
    operands

/-- Create files that are not there. -/
def touch (args : List Octets) : Act Nat := do
  let (os, operands) := optionsOf "dtr" args
  forEach "touch: cannot touch"
    (fun a t =>
      if t.existsAt (pathOf a) || given os 'c' then .ok t else t.write (pathOf a) [])
    operands

/-- The last name of a path. -/
def lastName (cs : Octets) : Octets :=
  let cs := (cs.reverse.dropWhile (· = '/')).reverse
  (cs.reverse.takeWhile (· ≠ '/')).reverse

/-- Where something goes: into a directory under its own name, or to the target itself. -/
def destination (t : FileTree) (source target : Octets) : Octets :=
  if t.isDirectory (pathOf target) then target ++ '/' :: lastName source else target

/-- A copy of what is at one location and below it at another one. -/
def grafted (t : FileTree) (source target : Location) : FileTree :=
  let moved := t.nodes.filterMap fun (l, n) =>
    if source.isPrefixOf l then some (target ++ l.drop source.length, n) else none
  { t with nodes := moved ++ t.nodes.filter fun (l, _) => !target.isPrefixOf l }

/-- Move or copy one operand. -/
def transfer (keep deep : Bool) (target source : Octets) (t : FileTree) :
    Except SystemError FileTree := do
  let (here, n) ← t.find (pathOf source)
  let place := destination t source target
  if n = .directory then
    if keep && !deep then .error (.other "-r not specified; omitting directory")
    else
      let there ← t.locate (pathOf place)
      let t' := grafted t here there
      .ok (if keep then t' else without t' here)
  else
    let (there, old) ← t.writable (pathOf place)
    match n, old with
    | .file contents executable, some (.file _ kept) =>
      .ok (if keep then t.set there (.file contents kept)
        else (t.set there (.file contents executable)).unset here)
    | n, _ => .ok (if keep then t.set there n else (t.set there n).unset here)

/-- Move or copy operands to the last of them. -/
def transferAll (what : String) (keep : Bool) (args : List Octets) : Act Nat := do
  let (os, operands) := optionsOf "" args
  let deep := given os 'r' || given os 'R' || given os 'a'
  match operands.reverse with
  | target :: sources@(_ :: _) =>
    forEach what (transfer keep deep target) sources.reverse
  | _ =>
    complain (octets (what.takeWhile (· ≠ ' ')).copy ++ octets " missing file operand")
    return 1

/-- Move files. -/
def mv (args : List Octets) : Act Nat := transferAll "mv: cannot stat" false args

/-- Copy files. -/
def cp (args : List Octets) : Act Nat := transferAll "cp: cannot stat" true args

/-- Whether a mode makes a file executable; none if it does not say. -/
def executableBy (mode : Octets) : Option Bool :=
  if mode.all Char.isDigit then some (mode.any fun c => (c.toNat - '0'.toNat) % 2 = 1)
  else if mode.contains 'x' then
    if mode.contains '-' then some false else some true
  else none

/-- Change who may run files. -/
def chmod (args : List Octets) : Act Nat := do
  match args.filter fun a => a ≠ ['-', 'R'] with
  | mode :: operands =>
    forEach "chmod: cannot access"
      (fun a t => do
        let (at_, n) ← t.find (pathOf a)
        match n, executableBy mode with
        | .file contents _, some executable => .ok (t.set at_ (.file contents executable))
        | _, _ => .ok t)
      operands
  | [] =>
    complain (octets "chmod: missing operand")
    return 1

/-- Names in order. -/
def inOrder (names : List Octets) : List Octets :=
  names.mergeSort fun a b => decide (String.ofList a ≤ String.ofList b)

/-- List directories, and files by their names. -/
def ls (args : List Octets) : Act Nat := do
  let (os, operands) := optionsOf "" args
  let all := given os 'a' || given os 'A'
  let t ← files
  let mut status := 0
  let operands := if operands.isEmpty then [['.']] else inOrder operands
  let mut directories : List (Octets × Location) := []
  for a in operands do
    match t.find (pathOf a) with
    | .error e =>
      blameFor "ls: cannot access" a e
      status := 2
    | .ok (at_, n) =>
      if n = .directory && !given os 'd' then directories := (a, at_) :: directories
      else
        let _ ← say (a ++ ['\n'])
  for (a, at_) in directories.reverse do
    let names := inOrder ((t.names at_).map ofBytes)
    let names := if all then names else names.filter (·.head? ≠ some '.')
    let names := if given os 'a' then ['.'] :: ['.', '.'] :: names else names
    let heading := if 1 < operands.length then a ++ [':', '\n'] else []
    let _ ← say (heading ++ names.flatMap (· ++ ['\n']))
  return status

/-- A path without the slashes at its end, unless it has nothing else. -/
def trimSlashes (cs : Octets) : Octets :=
  if !cs.isEmpty && cs.all (· = '/') then ['/'] else (cs.reverse.dropWhile (· = '/')).reverse

/-- The directory part of a path. -/
def directoryPart (cs : Octets) : Octets :=
  let cs := trimSlashes cs
  if cs = ['/'] then cs
  else if !cs.contains '/' then ['.']
  else
    let front := (cs.reverse.dropWhile (· ≠ '/')).reverse
    trimSlashes front

/-- Print the directory parts of paths. -/
def dirname (args : List Octets) : Act Nat := do
  let (_, operands) := optionsOf "" args
  if operands.isEmpty then
    complain (octets "dirname: missing operand")
    return 1
  let _ ← say (operands.flatMap fun a => directoryPart a ++ ['\n'])
  return 0

/-- The last part of a path, without a suffix. -/
def lastPart (cs suffix : Octets) : Octets :=
  let name := if trimSlashes cs = ['/'] then ['/'] else lastName cs
  if suffix.isSuffixOf name && suffix.length < name.length then
    name.take (name.length - suffix.length)
  else name

/-- Print the last part of a path. -/
def basename (args : List Octets) : Act Nat := do
  match args with
  | a :: rest =>
    let _ ← say (lastPart a (rest.headD []) ++ ['\n'])
    return 0
  | [] =>
    complain (octets "basename: missing operand")
    return 1

end SourceFormat.Shell.Utility
