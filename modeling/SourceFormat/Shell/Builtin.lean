import SourceFormat.Shell.Expansion
import SourceFormat.Shell.Signal
import SourceFormat.Shell.Utility.Files
import SourceFormat.Shell.Utility.Test

/-!
# Commands of the shell itself

These look at or change the shell they are run in, so they cannot be programs of their own.  Some of
them are special: an assignment in front of one stays, and a mistake in one ends the script.
-/

namespace SourceFormat.Shell

/-- Set the status and go on. -/
def withStatus (n : Nat) : Act Flow := do
  modifyShell fun s => { s with status := n }
  return .next

/-- A command that is done with a status. -/
def done (x : Act Nat) : Act Flow := do withStatus (← x)

/-- Take note of how a process ended. -/
def reap (e : Subprocess.Ending) : Act Flow := do
  match e with
  | .signalled n =>
    match Signal.describe? n with
    | some text => complain (octets text)
    | none => pure ()
  | .exited _ => pure ()
  withStatus e.status

/-- A command that fails only if it cannot print. -/
def printing (name : String) (x : Act Nat) : Act Flow := do
  let n ← x
  if n ≠ 0 then grumble (octets name ++ octets ": " ++ octets name ++ octets ": I/O error")
  withStatus n

/-- End the script because of a mistake. -/
def mistake (text : Octets) : Act Flow := do
  grumble text
  return .exit 2

/-- The names of the special ones. -/
def specialNames : List Octets :=
  [":", ".", "break", "continue", "eval", "exec", "exit", "export", "readonly", "return", "set",
   "shift", "times", "trap", "unset"].map String.toList

/-- A number given as an argument. -/
def natural? (cs : Octets) : Option Nat :=
  if !cs.isEmpty && cs.all Char.isDigit then (String.ofList cs).toNat? else none

/-- A count given as the first argument, one if there is none, and what to do with it. -/
def counting (name : String) (args : List Octets) (f : Nat → Act Flow) : Act Flow :=
  match args with
  | [] => f 1
  | a :: _ =>
    match natural? a with
    | some n => f n
    | none => mistake (octets name ++ octets ": Illegal number: " ++ a)

/-- Leave so many of the loops that are being run; without one this does nothing. -/
def leaving (name : String) (f : Nat → Flow) (args : List Octets) : Act Flow :=
  counting name args fun n => do
    modifyShell fun s => { s with status := 0 }
    let loops := (← getShell).loops
    return if loops = 0 then .next else f (min n loops)

/-- A status given as the first argument, or the latest one, and what to do with it. -/
def ending (name : String) (args : List Octets) (f : Nat → Flow) : Act Flow := do
  match args with
  | [] => return f (← getShell).status
  | a :: _ =>
    match natural? a with
    | some n =>
      modifyShell fun s => { s with status := n % 256 }
      return f (n % 256)
    | none => mistake (octets name ++ octets ": Illegal number: " ++ a)

/-- Drop arguments. -/
def shift (args : List Octets) : Act Flow :=
  counting "shift" args fun n => do
    let s ← getShell
    if s.args.length < n then mistake (octets "shift: can't shift that many")
    else
      modifyShell fun s => { s with args := s.args.drop n }
      withStatus 0

/-- Cut `name=value`. -/
def cutAssignment (cs : Octets) : Octets × Option Octets :=
  let name := cs.takeWhile (· ≠ '=')
  match cs.drop name.length with
  | _ :: value => (name, some value)
  | [] => (name, none)

/-- Hand variables on to programs. -/
def exportNames (args : List Octets) : Act Flow := do
  for a in args do
    let (name, value) := cutAssignment a
    match value with
    | some v => assign name v
    | none => pure ()
    modifyShell fun s => { s with exported := name :: s.exported.filter (· ≠ name) }
  withStatus 0

/-- Give variables values, as a function's own; what they held comes back behind the function. -/
def localNames (args : List Octets) : Act Flow := do
  for a in args do
    let (name, value) := cutAssignment a
    modifyShell fun s => { s with saved := (name, lookup? s name) :: s.saved }
    match value with
    | some v => assign name v
    | none => pure ()
  withStatus 0

/-- Forget a variable. -/
def forget (name : Octets) : Act Unit :=
  modifyShell fun s => { s with
    bindings := s.bindings.filter (·.1 ≠ name), exported := s.exported.filter (· ≠ name) }

/-- Put a variable back to what it held. -/
def restore (name : Octets) (value : Option Octets) : Act Unit :=
  match value with
  | some v => assign name v
  | none => modifyShell fun s => { s with bindings := s.bindings.filter (·.1 ≠ name) }

/-- Forget variables, or functions with `-f`. -/
def unset (args : List Octets) : Act Flow := do
  match args with
  | ['-', 'f'] :: names =>
    modifyShell fun s => { s with functions := s.functions.filter fun f => !names.contains f.1 }
  | ['-', 'v'] :: names =>
    for n in names do forget n
  | names =>
    for n in names do forget n
  withStatus 0

/-- Turn an option on or off. -/
def setOption (on : Bool) (c : Char) : Act Unit :=
  modifyShell fun s =>
    if c = 'e' then { s with stopOnFailure := on }
    else if c = 'u' then { s with refuseUnset := on }
    else s

/-- Set options and arguments. -/
def setArguments : Nat → List Octets → Act Flow
  | 0, _ => withStatus 0
  | fuel + 1, args => do
    match args with
    | [] => withStatus 0
    | ['-', '-'] :: rest =>
      modifyShell fun s => { s with args := rest }
      withStatus 0
    | ['-', 'o'] :: name :: rest =>
      if name = octets "errexit" then setOption true 'e'
      else if name = octets "nounset" then setOption true 'u'
      setArguments fuel rest
    | ['+', 'o'] :: name :: rest =>
      if name = octets "errexit" then setOption false 'e'
      else if name = octets "nounset" then setOption false 'u'
      setArguments fuel rest
    | ('-' :: cs@(_ :: _)) :: rest =>
      for c in cs do setOption true c
      setArguments fuel rest
    | ('+' :: cs@(_ :: _)) :: rest =>
      for c in cs do setOption false c
      setArguments fuel rest
    | rest =>
      modifyShell fun s => { s with args := rest }
      withStatus 0

/-- A location as a path from the root. -/
def pathText (at_ : Location) : Octets :=
  if at_.isEmpty then ['/'] else at_.flatMap fun name => '/' :: ofBytes name

/-- Change the working directory. -/
def changeDirectory (args : List Octets) : Act Flow := do
  let s ← getShell
  let args := args.filter fun a => a ≠ ['-', 'P'] ∧ a ≠ ['-', 'L'] ∧ a ≠ ['-', '-']
  let target := match args with
    | [] => (lookup? s (octets "HOME")).getD []
    | ['-'] :: _ => (lookup? s (octets "OLDPWD")).getD []
    | a :: _ => a
  match (← files).find (pathOf target) with
  | .ok (at_, .directory) =>
    assign (octets "OLDPWD") (pathText s.workingDirectory)
    assign (octets "PWD") (pathText at_)
    modifyShell fun s => { s with workingDirectory := at_ }
    if args.head? = some ['-'] then
      let _ ← say (pathText at_ ++ ['\n'])
    withStatus 0
  | _ =>
    grumble (octets "cd: can't cd to " ++ target)
    withStatus 2

/-- Print the working directory. -/
def printDirectory : Act Flow := do
  let s ← getShell
  let ok ← say (pathText s.workingDirectory ++ ['\n'])
  withStatus (if ok then 0 else 1)

/-! ## Reading lines -/

/-- Characters up to the end of a line; the flag says that the line end was met.  Without `raw` a
backslash keeps the next character from being a separator and joins lines. -/
def readLine (raw : Bool) : Nat → Marked → Act (Marked × Bool)
  | 0, found => return (found.reverse, false)
  | fuel + 1, found => do
    match ofBytes (← receive 0 1) with
    | [] => return (found.reverse, false)
    | c :: _ =>
      if c = '\n' then return (found.reverse, true)
      else if c = '\\' && !raw then
        match ofBytes (← receive 0 1) with
        | [] => return (found.reverse, false)
        | d :: _ => readLine raw fuel (if d = '\n' then found else (d, true) :: found)
      else if c = '\x00' then readLine raw fuel found
      else readLine raw fuel ((c, false) :: found)

/-- Whether a character of a line is a separator of one kind. -/
def separates (ifs : Octets) (blank : Bool) (c : Char × Bool) : Bool :=
  !c.2 && ifs.contains c.1 && isBlankSeparator c.1 = blank

/-- Cut a line into as many values as there are names; the last one takes the rest. -/
def valuesFor (ifs : Octets) : List Octets → Marked → List (Octets × Octets)
  | [], _ => []
  | [name], m =>
    let m := m.dropWhile (separates ifs true)
    let m := (m.reverse.dropWhile (separates ifs true)).reverse
    -- one separator behind a single field does not count
    let inner := m.dropLast
    let lone := match m.getLast? with
      | some c => separates ifs false c && !inner.any fun d => !d.2 && ifs.contains d.1
      | none => false
    [(name, unmark (if lone then inner else m))]
  | name :: names, m =>
    let m := m.dropWhile (separates ifs true)
    let field := m.takeWhile fun c => c.2 || !ifs.contains c.1
    let m := (m.drop field.length).dropWhile (separates ifs true)
    let m := match m with
      | c :: rest => if separates ifs false c then rest else m
      | [] => m
    (name, unmark field) :: valuesFor ifs names m

/-- Read a line into variables. -/
def read (args : List Octets) : Act Flow := do
  let raw := args.contains ['-', 'r']
  let names := args.filter fun a => a ≠ ['-', 'r']
  if names.isEmpty then mistake (octets "read: arg count")
  else
    let (line, ended) ← readLine raw 1000000 []
    for (name, value) in valuesFor (separators (← getShell)) names line do assign name value
    withStatus (if ended then 0 else 1)

/-! ## Signals and processes -/

/-- Do what a signal to the shell itself does. -/
def takeSignal (n : Nat) : Act Unit := do
  let s ← getShell
  let trap? := (Signal.name? n).bind fun name => (s.traps.find? (·.1 = name)).map (·.2)
  match trap? with
  | some text =>
    if n = Signal.kill then stop (.signalled n)
    else if text.isEmpty then return ()
    else modifyShell fun s => { s with sprung := s.sprung ++ [text] }
  | none =>
    if n = 0 || Signal.isHarmless n then return ()
    else if Signal.stops n then hang
    else stop (.signalled n)

/-- Send a signal to processes. -/
def killProcesses (args : List Octets) : Act Flow := do
  let (signal?, targets) : Option Nat × List Octets := match args with
    | ['-', 's'] :: name :: rest => (Signal.number? name, rest)
    | ['-', '-'] :: rest => (some Signal.terminate, rest)
    | ('-' :: name) :: rest => (Signal.number? name, rest)
    | rest => (some Signal.terminate, rest)
  match signal? with
  | none => mistake (octets "kill: Illegal option")
  | some n =>
    let mut status := 0
    for a in targets do
      match natural? a with
      | none =>
        grumble (octets "kill: Illegal number: " ++ a)
        status := 2
      | some pid =>
        let s ← getShell
        if pid = s.pid then
          if s.forked then signalTo 0 n else takeSignal n
        else if s.relatives.contains pid || s.jobs.contains (pid, none) then
          if n ≠ 0 && !Signal.isHarmless n then signalTo pid n
        else
          grumble (octets "kill: No such process\n")
          status := 1
    withStatus status

/-- Set, lift or ignore traps. -/
def trap (args : List Octets) : Act Flow := do
  let (action, names) : Option Octets × List Octets := match args with
    | ['-'] :: rest => (none, rest)
    | ['-', '-'] :: a :: rest => (some a, rest)
    | a :: rest => if rest.isEmpty || (natural? a).isSome then (none, args) else (some a, rest)
    | [] => (none, [])
  let mut status := 0
  for cs in names do
    match (Signal.number? cs).bind Signal.name? with
    | some name =>
      modifyShell fun s =>
        let others := s.traps.filter (·.1 ≠ name)
        { s with traps := match action with
          | some a => (name, a) :: others
          | none => others }
    | none =>
      grumble (octets "trap: " ++ cs ++ octets ": bad trap")
      status := 1
  withStatus status

/-- Take note of the status of a process in the background. -/
def noteJob (pid : Nat) (e : Subprocess.Ending) : Act Unit :=
  modifyShell fun s => { s with
    jobs := s.jobs.map fun j => if j.1 = pid then (pid, some e.status) else j }

/-- Wait for one process in the background.  How it was ended is said only once. -/
def awaitJob (pid : Nat) : Act Nat := do
  match (← getShell).jobs.find? (·.1 = pid) with
  | none => return 127
  | some (_, some status) => return status
  | some (_, none) =>
    let e ← waitFor pid
    noteJob pid e
    let _ ← reap e
    return e.status

/-- Wait for processes in the background. -/
def awaitJobs (args : List Octets) : Act Flow := do
  if args.isEmpty then
    for (pid, _) in (← getShell).jobs.reverse do
      noteJob pid (← waitFor pid)
    withStatus 0
  else
    let mut status := 0
    for a in args do
      match natural? a with
      | some pid => status := ← awaitJob pid
      | none =>
        grumble (octets "wait: Illegal number: " ++ a)
        status := 2
    withStatus status

/-- The commands of the shell that need no other command to be run. -/
def builtin? (name : Octets) : Option (List Octets → Act Flow) :=
  match String.ofList name with
  | ":" => some fun _ => withStatus 0
  | "true" => some fun _ => withStatus 0
  | "false" => some fun _ => withStatus 1
  | "break" => some (leaving "break" .leave)
  | "continue" => some (leaving "continue" .again)
  | "return" => some fun args => ending "return" args fun _ => .back
  | "exit" => some fun args => ending "exit" args .exit
  | "shift" => some shift
  | "export" => some exportNames
  | "readonly" => some fun args => exportNames (args.filter fun a => (cutAssignment a).2.isSome)
  | "local" => some localNames
  | "unset" => some unset
  | "set" => some fun args => setArguments (args.length + 1) args
  | "cd" => some changeDirectory
  | "pwd" => some fun _ => printDirectory
  | "read" => some read
  | "kill" => some killProcesses
  | "trap" => some trap
  | "wait" => some awaitJobs
  | "umask" => some fun _ => withStatus 0
  | "ulimit" => some fun _ => withStatus 0
  | "times" => some fun _ => withStatus 0
  | "echo" => some fun args => printing "echo" (Utility.echo args)
  | "printf" => some fun args => done (Utility.printf args)
  | "test" => some fun args => done (Utility.test false args)
  | "[" => some fun args => done (Utility.test true args)
  | _ => none

end SourceFormat.Shell
