import SourceFormat.Shell.Builtin
import SourceFormat.Shell.Parser
import SourceFormat.Shell.Utility.Table

/-!
# Running scripts

Commands are run in the order of the script; how each of them ends decides how it goes on.  Words
become fields first, then the redirections are made, then the command is looked up: the shell's own
commands, functions, and programs.

Commands contain words and words contain commands, so the functions below call one another; each
call uses up one unit of fuel.  A script that has used it all up is one that never ends, and goes on
for ever.
-/

namespace SourceFormat.Shell

open Subprocess (Behaviour Ending)

/-- The shell as a copy of it begins: traps are gone, but what is ignored stays so. -/
def childOf (s : Shell) : Shell :=
  { s with
    traps := s.traps.filter (·.2.isEmpty), sprung := [], forked := true
    jobs := [], relatives := s.jobs.map (·.1) ++ s.relatives }

/-- Do something in a copy of the shell and go on when that has ended. -/
def inside (x : Act Ending) : Act Ending := fun s k =>
  (x.behaviour (childOf s)).follow fun e => k e s

/-- Going through a loop takes time: a millisecond for every hundred times.  In between the system
gets its turn. -/
def takeTime (count : Nat) : Act Unit := do
  if count % 100 = 0 then pause 1
  else
    let _ ← files

/-- What the variables hand on to a program. -/
def environment (s : Shell) : List (Octets × Octets) :=
  s.bindings.filter fun (name, _) => s.exported.contains name

/-- The words for a file that could not be opened or created. -/
def openReason (creating : Bool) (e : SystemError) : Octets :=
  if e = .notFound ∨ e = .notDirectory then
    octets (if creating then "Directory nonexistent" else "No such file")
  else reason e

/-- The channel that a special file stands for. -/
def specialChannel? (path : Octets) : Option Nat :=
  match String.ofList path with
  | "/dev/stdin" => some 0
  | "/dev/stdout" => some 1
  | "/dev/stderr" => some 2
  | _ =>
    if (octets "/dev/fd/").isPrefixOf path then natural? (path.drop 8)
    else if (octets "/proc/self/fd/").isPrefixOf path then natural? (path.drop 14)
    else none

/-- Let a channel lead where another one leads. -/
def duplicate (channel : Nat) (source : Octets) : Act Bool := do
  if source = ['-'] then
    setTarget channel none
    return true
  else
    match natural? source with
    | none =>
      grumble (octets "Syntax error: Bad fd number")
      return false
    | some n =>
      match target? (← getShell) n with
      | some t =>
        setTarget channel (some t)
        return true
      | none =>
        grumble (source ++ octets ": Bad file descriptor")
        return false

/-- Let a channel lead to a file. -/
def openFile (channel : Nat) (kind : RedirectKind) (path : Octets) : Act Bool := do
  match specialChannel? path with
  | some n => duplicate channel (octets (toString n))
  | none =>
    let writes := kind = .output ∨ kind = .append ∨ kind = .both
    let opened ← (if writes then
        change fun t => do
          let (at_, old) ← t.writable (pathOf path)
          match old with
          | none => .ok (t.set at_ (.file [] false))
          | some (.file _ executable) =>
            .ok (if kind = .output then t.set at_ (.file [] executable) else t)
          | some (.utility _) => .error (.os 26)
          | some _ => .ok t
      else pure (Except.ok ()))
    match opened with
    | .error e =>
      grumble (octets "cannot create " ++ path ++ octets ": " ++ openReason true e)
      return false
    | .ok () =>
      match (← files).find (pathOf path) with
      | .error e =>
        grumble (octets "cannot open " ++ path ++ octets ": " ++ openReason false e)
        return false
      | .ok (at_, node) =>
        match node with
        | .device .null => setTarget channel (some .null)
        | .device .zero => setTarget channel (some .zero)
        | .device .full => setTarget channel (some .full)
        | .file contents _ =>
          if writes then setTarget channel (some (.file at_)) else feedFrom channel contents
        | .utility _ => feedFrom channel []
        | .directory => feedFrom channel []
        return true

/-- Close the channels for output that nothing leads to any more. -/
def releaseChannels : Act Unit := do
  for n in [1, 2] do
    if !(← getShell).targets.any (fun t => t.2 = .channel n) then
      fun s k => .close n fun _ => k () s

/-- What a name means to the shell. -/
inductive Meaning where
  | special
  | function (body : Command)
  | builtin
  | program (path : Octets) (node : Node)
  /-- There is something of the name, but it cannot be run. -/
  | refused
  | missing

/-- The program at a path. -/
def programAt (t : FileTree) (path : Octets) : Meaning :=
  match t.find (pathOf path) with
  | .ok (_, node) =>
    match node with
    | .file _ true => .program path node
    | .utility _ => .program path node
    | _ => .refused
  | .error _ => .missing

/-- The program of a name: what is at a path, or what is found first in the directories that are
searched. -/
def programOf (s : Shell) (t : FileTree) (name : Octets) : Meaning :=
  if name.isEmpty then .missing
  else if name.contains '/' then programAt t name
  else
    let directories := Utility.splitAtChar ':' ((lookup? s (octets "PATH")).getD [])
    directories.foldl (fun found d =>
      match found, programAt t ((if d.isEmpty then ['.'] else d) ++ '/' :: name) with
      | .program p n, _ => .program p n
      | _, .program p n => .program p n
      | .refused, _ => .refused
      | .missing, here => here
      | found, _ => found) .missing

/-- The names of the commands that are the shell's own but need other commands to be run. -/
def runnerNames : List Octets := ["eval", ".", "exec", "command", "type"].map String.toList

/-- What a name means. -/
def meaningOf (s : Shell) (t : FileTree) (name : Octets) : Meaning :=
  if specialNames.contains name then .special
  else
    match s.functions.find? (·.1 = name) with
    | some (_, body) => .function body
    | none =>
      if (builtin? name).isSome || runnerNames.contains name then .builtin
      else programOf s t name

/-- What `command -v` prints for a name. -/
def describeMeaning (name : Octets) : Meaning → Option Octets
  | .special => some name
  | .function _ => some name
  | .builtin => some name
  | .program path _ => some path
  | .refused => none
  | .missing => none

/-- What `type` says about a name. -/
def explainMeaning (name : Octets) : Meaning → Octets
  | .special => name ++ octets " is a special shell builtin"
  | .function _ => name ++ octets " is a shell function"
  | .builtin => name ++ octets " is a shell builtin"
  | .program path _ => name ++ octets " is " ++ path
  | .refused => name ++ octets ": not found"
  | .missing => name ++ octets ": not found"

/-- The first line of a file that says which program runs it: the program and its one argument. -/
def interpreterOf (contents : Bytes) : Option (Octets × Option Octets) :=
  match ofBytes (contents.take 256) with
  | '#' :: '!' :: rest =>
    let line := rest.takeWhile (· ≠ '\n')
    let blank := fun c => c = ' ' || c = '\t'
    let line := (line.dropWhile blank).reverse.dropWhile blank |>.reverse
    let program := line.takeWhile fun c => !blank c
    let arg := (line.drop program.length).dropWhile blank
    if program.isEmpty then none else some (program, if arg.isEmpty then none else some arg)
  | _ => none

/-- The arguments for the program that runs a file. -/
def interpreterArgs (arg : Option Octets) (path : Octets) (args : List Octets) : List Octets :=
  arg.toList ++ path :: args

/-- The value of a parameter; none if it is not set. -/
def parameter? (s : Shell) (name : Octets) : Option Octets :=
  match name with
  | ['#'] => some (octets (toString s.args.length))
  | ['?'] => some (octets (toString s.status))
  | ['$'] => some (octets (toString s.pid))
  | ['!'] => s.latestJob.map fun j => octets (toString j)
  | ['-'] => some ((if s.stopOnFailure then ['e'] else []) ++ (if s.refuseUnset then ['u'] else []))
  | ['@'] => if s.args.isEmpty then none else some (joinWords [' '] s.args)
  | ['*'] => if s.args.isEmpty then none else some (joinWords (joint (separators s)) s.args)
  | _ =>
    match natural? name with
    | some 0 => some s.name
    | some n => s.args[n - 1]?
    | none => lookup? s name

/-- A mistake in a word. -/
def spoil (text : Octets) : Act (List Fragment) := do
  grumble text
  modifyShell fun s => { s with fatal := some 2 }
  return []

/-- The fragments of a parameter's value. -/
def valueFragments (s : Shell) (name : Octets) (quoted : Bool) (value : Octets) : List Fragment :=
  if name = ['@'] then [.each s.args quoted]
  else if name = ['*'] ∧ !quoted then [.each s.args false]
  else if quoted then [.kept (mark true value)] else [.loose value]

/-- Drop line ends from the end of an output, and all NUL bytes. -/
def trimOutput (bs : Bytes) : Octets :=
  ofBytes ((bs.filter (· ≠ 0)).reverse.dropWhile (· = 0x0A)).reverse

/-- The reading of a text as commands, with the texts in it kept for later. -/
def readCommands (text : Octets) : Act Script := do
  let firstId := ((← getShell).texts.map (·.id)).foldl max 0 + 1
  let script := Script.read text firstId
  modifyShell fun s => { s with texts := s.texts ++ script.texts }
  return script

/-- A tilde at the beginning of a word stands for the home directory. -/
def expandTilde (s : Shell) (word : List Part) : List Part :=
  match word with
  | .chars ['~'] false :: rest =>
    let ends := match rest with
      | [] => true
      | .chars ('/' :: _) _ :: _ => true
      | _ => false
    if ends then .chars ((lookup? s (octets "HOME")).getD ['~']) true :: rest else word
  | word => word

/-- The status that a shell ends with. -/
def statusOf (flow : Flow) (s : Shell) : Nat :=
  match flow with
  | .exit n => n
  | _ => s.status

/-- What a loop makes of how its body ended, and whether it goes on. -/
def outwards (flow : Flow) : Flow × Bool :=
  match flow with
  | .leave n => (if n ≤ 1 then .next else .leave (n - 1), false)
  | .again n => if n ≤ 1 then (.next, true) else (.again (n - 1), false)
  | flow => (flow, flow = .next)

mutual

/-- The fragments of a part of a word. -/
def expandPart : Nat → Part → Act (List Fragment)
  | 0, _ => hang
  | fuel + 1, part => do
    match part with
    | .chars cs quoted => return [.kept (mark quoted cs)]
    | .param name op other quoted => expandParam fuel name op other quoted
    | .output body quoted =>
      let s ← getShell
      let channel := s.nextChannel
      let child : Act Ending := do
        setTarget 1 (some (.channel channel))
        modifyShell fun s => { s with nextChannel := channel + 1 }
        endShell fuel (← runList fuel false body)
      let (bs, e) ← collected channel (child.behaviour (childOf s))
      modifyShell fun s => { s with status := e.status, substituted := some e.status }
      let text := trimOutput bs
      return [if quoted then .kept (mark true text) else .loose text]
    | .arithmetic expression quoted =>
      let text := unmark (wholeWord (← expandParts fuel expression))
      let s ← getShell
      match Arithmetic.value? (parameter? s) text with
      | some (v, store) =>
        for (name, n) in store.reverse do assign name (octets (toString n))
        let text := octets (toString v)
        return [if quoted then .kept (mark true text) else .loose text]
      | none => spoil (octets "arithmetic expression: expecting primary: \"" ++ text ++ ['"'])

/-- The fragments of a parameter. -/
def expandParam : Nat → Octets → ParamOp → List Part → Bool → Act (List Fragment)
  | 0, _, _, _, _ => hang
  | fuel + 1, name, op, other, quoted => do
    let s ← getShell
    let value? := parameter? s name
    let given := fun (orEmpty : Bool) => match value? with
      | some v => !(orEmpty && v.isEmpty)
      | none => false
    let value := value?.getD []
    let own := valueFragments s name quoted value
    let expandOther : Act (List Fragment) := do
      let fs ← expandParts fuel other
      return if quoted then fs else loosened fs
    match op with
    | .plain =>
      if value?.isNone ∧ s.refuseUnset ∧ name ≠ ['@'] ∧ name ≠ ['*'] then
        spoil (name ++ octets ": parameter not set")
      else return own
    | .default orEmpty => if given orEmpty then return own else expandOther
    | .alternative orEmpty => if given orEmpty then expandOther else return []
    | .assign orEmpty =>
      if given orEmpty then return own
      else
        let v := unmark (wholeWord (← expandParts fuel other))
        assign name v
        return [if quoted then .kept (mark true v) else .loose v]
    | .require orEmpty =>
      if given orEmpty then return own
      else
        let text := unmark (wholeWord (← expandParts fuel other))
        let text := if !text.isEmpty then text
          else octets (if orEmpty then "parameter not set or null" else "parameter not set")
        spoil (name ++ octets ": " ++ text)
    | .length =>
      let n := if name = ['@'] ∨ name = ['*'] then s.args.length else value.length
      let text := octets (toString n)
      return [if quoted then .kept (mark true text) else .loose text]
    | .dropFront longest =>
      let pattern := Glob.ofChars (wholeWord (← expandParts fuel other))
      return valueFragments s ['_'] quoted (dropFront pattern longest value)
    | .dropBack longest =>
      let pattern := Glob.ofChars (wholeWord (← expandParts fuel other))
      return valueFragments s ['_'] quoted (dropBack pattern longest value)

/-- The fragments of a word. -/
def expandParts : Nat → List Part → Act (List Fragment)
  | 0, _ => hang
  | _, [] => return []
  | fuel + 1, p :: ps => do
    let fs ← expandPart fuel p
    return fs ++ (← expandParts fuel ps)

/-- A word that is not cut into fields. -/
def expandWhole : Nat → List Part → Act Marked
  | 0, _ => hang
  | fuel + 1, w => do return wholeWord (← expandParts fuel (expandTilde (← getShell) w))

/-- The fields of words. -/
def expandWords : Nat → List (List Part) → Act (List Octets)
  | 0, _ => hang
  | _, [] => return []
  | fuel + 1, w :: ws => do
    let fs ← expandParts fuel (expandTilde (← getShell) w)
    let fields := fieldsOf (separators (← getShell)) fs
    let t ← if fields.any Glob.isPattern then files else pure {}
    return fields.flatMap (globbed t) ++ (← expandWords fuel ws)

/-- Run commands one after the other.  `checked` says that somebody looks at how they end. -/
def runList : Nat → Bool → List Command → Act Flow
  | 0, _, _ => hang
  | _, _, [] => return .next
  | fuel + 1, checked, c :: cs => do
    match ← runCommand fuel checked c with
    | .next => runList fuel checked cs
    | flow => return flow

/-- Run a command, then the traps that were sprung by it. -/
def runCommand : Nat → Bool → Command → Act Flow
  | 0, _, _ => hang
  | fuel + 1, checked, c => do
    let flow ← runAny fuel checked c
    let s ← getShell
    if s.sprung.isEmpty || flow ≠ .next then return flow
    else
      modifyShell fun s => { s with sprung := [] }
      let flow ← evalText fuel (joinWords ['\n'] s.sprung)
      if flow = .next then modifyShell fun t => { t with status := s.status }
      return flow

/-- A failure that nobody looks at may end the script. -/
def unlessFailed : Nat → Bool → Flow → Act Flow
  | 0, _, flow => return flow
  | _ + 1, checked, flow => do
    let s ← getShell
    if flow = .next ∧ s.status ≠ 0 ∧ s.stopOnFailure ∧ !checked then return .exit s.status
    else return flow

/-- Run a command of any kind. -/
def runAny : Nat → Bool → Command → Act Flow
  | 0, _, _ => hang
  | fuel + 1, checked, c => do
    match c with
    | .simple line assignments words redirects =>
      modifyShell fun s => { s with line, substituted := none }
      unlessFailed fuel checked (← runSimple fuel assignments words redirects)
    | .pipeline negated stages =>
      let flow ← runPipeline fuel (checked || negated) stages
      if negated then
        modifyShell fun s => { s with status := if s.status = 0 then 1 else 0 }
        return flow
      else unlessFailed fuel checked flow
    | .chain first onSuccess second =>
      match ← runCommand fuel true first with
      | .next =>
        if ((← getShell).status = 0) = onSuccess then runCommand fuel checked second
        else return .next
      | flow => return flow
    | .background body => runBackground fuel body
    | .subshell body redirects =>
      withRedirects fuel redirects do
        let e ← inside do endShell fuel (← runList fuel checked body)
        unlessFailed fuel checked (← reap e)
    | .group body redirects => withRedirects fuel redirects (runList fuel checked body)
    | .branch condition yes no redirects =>
      withRedirects fuel redirects do
        match ← runList fuel true condition with
        | .next =>
          let chosen := if (← getShell).status = 0 then yes else no
          if chosen.isEmpty then withStatus 0 else runList fuel checked chosen
        | flow => return flow
    | .loop untilTrue condition body redirects =>
      withRedirects fuel redirects do
        modifyShell fun s => { s with loops := s.loops + 1 }
        let flow ← runLoop fuel checked untilTrue condition body 0
        modifyShell fun s => { s with loops := s.loops - 1 }
        return flow
    | .each name words body redirects =>
      withRedirects fuel redirects do
        let values ← match words with
          | some ws => expandWords fuel ws
          | none => do pure (← getShell).args
        match (← getShell).fatal with
        | some n => return .exit n
        | none =>
          if values.isEmpty then withStatus 0
          else
            modifyShell fun s => { s with loops := s.loops + 1 }
            let flow ← runEach fuel checked name body values
            modifyShell fun s => { s with loops := s.loops - 1 }
            return flow
    | .select word cases redirects =>
      withRedirects fuel redirects do
        let value := unmark (← expandWhole fuel word)
        match (← getShell).fatal with
        | some n => return .exit n
        | none => runCases fuel checked value cases
    | .define name body =>
      modifyShell fun s => { s with
        functions := (name, body) :: s.functions.filter (·.1 ≠ name) }
      withStatus 0

/-- Run a loop; `status` is the one of the latest time through. -/
def runLoop : Nat → Bool → Bool → List Command → List Command → Nat → Act Flow
  | 0, _, _, _, _, _ => hang
  | fuel + 1, checked, untilTrue, condition, body, status => do
    takeTime fuel
    match outwards (← runList fuel true condition) with
    | (.next, true) =>
      let ok := (← getShell).status = 0
      if ok = untilTrue then
        modifyShell fun s => { s with status }
        return .next
      else
        match outwards (← runList fuel checked body) with
        | (.next, true) => runLoop fuel checked untilTrue condition body (← getShell).status
        | (flow, _) => return flow
    | (flow, _) => return flow

/-- Run a loop over values. -/
def runEach : Nat → Bool → Octets → List Command → List Octets → Act Flow
  | 0, _, _, _, _ => hang
  | _, _, _, _, [] => return .next
  | fuel + 1, checked, name, body, v :: vs => do
    takeTime fuel
    assign name v
    match outwards (← runList fuel checked body) with
    | (.next, true) => runEach fuel checked name body vs
    | (flow, _) => return flow

/-- Run the first case that a value fits. -/
def runCases : Nat → Bool → Octets → List (List (List Part) × List Command) → Act Flow
  | 0, _, _, _ => hang
  | _, _, _, [] => withStatus 0
  | fuel + 1, checked, value, (patterns, body) :: cases => do
    if ← fitsAny fuel value patterns then
      if body.isEmpty then withStatus 0 else runList fuel checked body
    else runCases fuel checked value cases

/-- Whether a value fits one of some patterns. -/
def fitsAny : Nat → Octets → List (List Part) → Act Bool
  | 0, _, _ => hang
  | _, _, [] => return false
  | fuel + 1, value, p :: ps => do
    let pattern := Glob.ofChars (← expandWhole fuel p)
    if Glob.fits pattern value then return true else fitsAny fuel value ps

/-- Run commands joined by pipes. -/
def runPipeline : Nat → Bool → List Command → Act Flow
  | 0, _, _ => hang
  | _, _, [] => withStatus 0
  | fuel + 1, checked, [c] => runCommand fuel checked c
  | fuel + 1, _, first :: rest => do
    let s ← getShell
    let base := s.nextChannel
    let count := rest.length
    let stage := fun (i : Nat) (c : Command) =>
      let x : Act Ending := do
        modifyShell fun s => { s with nextChannel := base + count }
        if 0 < i then setTarget 0 (some (.channel (base + i - 1)))
        if i < count then setTarget 1 (some (.channel (base + i)))
        endShell fuel (← runCommand fuel false c)
      x.behaviour (childOf s)
    let whole := rest.zipIdx.foldl
      (fun left (c, i) => Behaviour.pipe (base + i) (some left) [] .exit (stage (i + 1) c))
      (stage 0 first)
    let e ← (fun s k => whole.follow fun e => k e s : Act Ending)
    reap e

/-- Start a command in the background. -/
def runBackground : Nat → Command → Act Flow
  | 0, _ => hang
  | fuel + 1, c => do
    let s ← getShell
    let child : Act Ending := do
      setTarget 0 (some .null)
      match c with
      | .simple line assignments words redirects =>
        modifyShell fun s => { s with line }
        if ← redirectAll fuel redirects then
          releaseChannels
          endShell fuel (← runSimple fuel assignments words [])
        else return .exited 2
      | .subshell body redirects =>
        if ← redirectAll fuel redirects then
          releaseChannels
          endShell fuel (← runList fuel false body)
        else return .exited 2
      | .group body redirects =>
        if ← redirectAll fuel redirects then
          releaseChannels
          endShell fuel (← runList fuel false body)
        else return .exited 2
      | c => endShell fuel (← runCommand fuel false c)
    let pid ← start (child.behaviour (childOf s))
    modifyShell fun s => { s with jobs := (pid, none) :: s.jobs, latestJob := some pid }
    withStatus 0

/-- Make redirections, one after the other, up to the first that fails. -/
def redirectAll : Nat → List Redirect → Act Bool
  | 0, _ => hang
  | _, [] => return true
  | fuel + 1, .mk channel kind target :: rest => do
    let ok ← match kind with
      | .here id => do
        let parts := (((← getShell).texts.find? (·.id = id)).map (·.parts)).getD []
        feedFrom channel (toBytes (unmark (wholeWord (← expandParts fuel parts))))
        pure true
      | .duplicate => do
        let word := unmark (← expandWhole fuel target)
        duplicate channel word
      | kind => do
        let path := unmark (← expandWhole fuel target)
        openFile channel kind path
    if ok then redirectAll fuel rest else return false

/-- Do something with redirections and undo them behind it. -/
def withRedirects : Nat → List Redirect → Act Flow → Act Flow
  | 0, _, _ => hang
  | fuel + 1, redirects, x => redirecting fuel redirects false x

/-- The same; `strict` says that a redirection that fails ends the script. -/
def redirecting : Nat → List Redirect → Bool → Act Flow → Act Flow
  | 0, _, _, _ => hang
  | fuel + 1, redirects, strict, x => do
    if redirects.isEmpty then x
    else
      let saved := (← getShell).targets
      if ← redirectAll fuel redirects then
        let flow ← x
        modifyShell fun s => { s with targets := saved }
        return flow
      else
        modifyShell fun s => { s with targets := saved }
        match (← getShell).fatal with
        | some n => return .exit n
        | none => if strict then return .exit 2 else withStatus 2

/-- Set variables in front of a command. -/
def assignAll : Nat → List (Octets × List Part) → Act Unit
  | 0, _ => hang
  | _, [] => return ()
  | fuel + 1, (name, w) :: rest => do
    assign name (unmark (← expandWhole fuel w))
    assignAll fuel rest

/-- Run a simple command. -/
def runSimple : Nat → List (Octets × List Part) → List (List Part) → List Redirect → Act Flow
  | 0, _, _, _ => hang
  | fuel + 1, assignments, words, redirects => do
    let fields ← expandWords fuel words
    match (← getShell).fatal with
    | some n => return .exit n
    | none =>
      match fields with
      | [] =>
        withRedirects fuel redirects do
          assignAll fuel assignments
          match (← getShell).fatal with
          | some n => return .exit n
          | none => withStatus ((← getShell).substituted.getD 0)
      | name :: args =>
        if name = octets "exec" then
          if ← redirectAll fuel redirects then
            assignAll fuel assignments
            modifyShell fun s => { s with
              exported := assignments.map (·.1) ++ s.exported }
            if args.isEmpty then withStatus 0
            else
              match args with
              | name :: args =>
                match programOf (← getShell) (← files) name with
                | .program path node => stop (← runNode fuel name path node args)
                | .refused =>
                  grumble (octets "exec: " ++ name ++ octets ": Permission denied")
                  return .exit 126
                | _ =>
                  grumble (octets "exec: " ++ name ++ octets ": not found")
                  return .exit 127
              | [] => withStatus 0
          else return .exit 2
        else
          let meaning := meaningOf (← getShell) (← files) name
          let isSpecial := match meaning with
            | .special => true
            | _ => false
          let before := ← getShell
          let flow ← redirecting fuel redirects isSpecial do
            assignAll fuel assignments
            if !isSpecial then
              modifyShell fun s => { s with
                exported := assignments.map (·.1) ++ s.exported }
            match (← getShell).fatal with
            | some n => return .exit n
            | none => invoke fuel meaning name args
          if !isSpecial && !assignments.isEmpty then
            for (x, _) in assignments do restore x (lookup? before x)
            modifyShell fun s => { s with exported := before.exported }
          return flow

/-- Run a command by what its name means. -/
def invoke : Nat → Meaning → Octets → List Octets → Act Flow
  | 0, _, _, _ => hang
  | fuel + 1, meaning, name, args => do
    match meaning with
    | .function body => runFunction fuel body args
    | .program path node => reap (← runNode fuel name path node args)
    | .refused =>
      grumble (name ++ octets ": Permission denied")
      withStatus 126
    | .missing =>
      grumble (name ++ octets (if name.isEmpty then ": Permission denied" else ": not found"))
      withStatus 127
    | _ =>
      match builtin? name with
      | some f => f args
      | none => runRunner fuel name args

/-- Run a function. -/
def runFunction : Nat → Command → List Octets → Act Flow
  | 0, _, _ => hang
  | fuel + 1, body, args => do
    let before ← getShell
    modifyShell fun s => { s with args, saved := [], loops := 0 }
    let flow ← runCommand fuel false body
    let after ← getShell
    for (name, value) in after.saved do restore name value
    modifyShell fun s => { s with
      args := before.args, saved := before.saved, loops := before.loops }
    return if flow = .back then .next else flow

/-- Run one of the shell's own commands that run others. -/
def runRunner : Nat → Octets → List Octets → Act Flow
  | 0, _, _ => hang
  | fuel + 1, name, args => do
    match String.ofList name, args with
    | "eval", args =>
      if args.isEmpty then withStatus 0 else evalText fuel (joinWords [' '] args)
    | ".", path :: _ =>
      match (← files).read (pathOf path) with
      | .ok contents =>
        match ← evalText fuel (ofBytes contents) with
        | .back => return .next
        | flow => return flow
      | .error _ => mistake (octets ".: cannot open " ++ path ++ octets ": No such file")
    | ".", [] => withStatus 0
    | "command", ['-', 'v'] :: names =>
      let s ← getShell
      let t ← files
      let found := names.map fun n => describeMeaning n (meaningOf s t n)
      let _ ← say (found.flatMap fun f => match f with
        | some text => text ++ ['\n']
        | none => [])
      withStatus (if found.all Option.isSome then 0 else 127)
    | "command", name :: args =>
      let s ← getShell
      invoke fuel (meaningOf { s with functions := [] } (← files) name) name args
    | "command", [] => withStatus 0
    | _, names =>
      let s ← getShell
      let t ← files
      let found := names.map fun n => (n, meaningOf s t n)
      let _ ← say (found.flatMap fun (n, m) => explainMeaning n m ++ ['\n'])
      withStatus (if found.all fun (n, m) => (describeMeaning n m).isSome then 0 else 127)

/-- Run a text as commands. -/
def evalText : Nat → Octets → Act Flow
  | 0, _ => hang
  | fuel + 1, text => do
    let script ← readCommands text
    match ← runList fuel false script.commands with
    | .next =>
      match script.failedAt with
      | some line =>
        modifyShell fun s => { s with line }
        mistake (octets "Syntax error")
      | none => return .next
    | flow => return flow

/-- The end of a shell: its trap for the end is run, and its status is what counts. -/
def endShell : Nat → Flow → Act Ending
  | 0, _ => hang
  | fuel + 1, flow => do
    let s ← getShell
    let status := statusOf flow s
    match s.traps.find? (·.1 = Signal.exitName) with
    | none => return .exited status
    | some (_, text) =>
      modifyShell fun s => { s with
        status, traps := s.traps.filter (·.1 ≠ Signal.exitName) }
      match ← evalText fuel text with
      | .exit n => return .exited n
      | _ => return .exited status

/-- Run a program up to its end.  `called` is the name it is called by. -/
def runNode : Nat → Octets → Octets → Node → List Octets → Act Ending
  | 0, _, _, _, _ => hang
  | fuel + 1, called, path, node, args => do
    match node with
    | .utility name =>
      match Utility.find? name with
      | some f => return .exited (← f args)
      | none =>
        if Utility.shellNames.contains name then inside (runShell fuel called args)
        else if Utility.commandNames.contains name then inside (runWrapped fuel name args)
        else
          inside do
            let _ ← (match builtin? (octets name) with
              | some f => f args
              | none => withStatus 127)
            return .exited (← getShell).status
    | .file contents true =>
      match interpreterOf contents with
      | some (program, arg) =>
        match programAt (← files) program with
        | .program p n => runNode fuel p p n (interpreterArgs arg path args)
        | _ =>
          grumble (path ++ octets ": not found")
          return .exited 127
      | none => inside (runShell fuel called (path :: args))
    | _ =>
      grumble (path ++ octets ": Permission denied")
      return .exited 126

/-- Run a command for a utility that runs commands. -/
def runWrapped : Nat → String → List Octets → Act Ending
  | 0, _, _ => hang
  | fuel + 1, wrapper, args => do
    let isAssignment := fun (a : Octets) => a.contains '='
    let isEmptied := wrapper = "env" && (args.head? = some ['-', 'i'] || args.head? = some ['-'])
    let args := if isEmptied then args.drop 1 else args
    if isEmptied then modifyShell fun s => { s with exported := [] }
    let settings := if wrapper = "env" then args.takeWhile isAssignment else []
    for a in settings do
      let (name, value) := cutAssignment a
      assign name (value.getD [])
      modifyShell fun s => { s with exported := name :: s.exported }
    match args.drop settings.length with
    | [] => return .exited (← Utility.printenv [])
    | name :: args =>
      match programOf (← getShell) (← files) name with
      | .program path node => runNode fuel name path node args
      | .refused =>
        complain (octets wrapper ++ octets ": " ++ Utility.inQuotes name
          ++ octets ": Permission denied")
        return .exited 126
      | _ =>
        complain (octets wrapper ++ octets ": " ++ Utility.inQuotes name
          ++ octets ": No such file or directory")
        return .exited 127

/-- Run a shell with arguments: a text behind `-c`, a script by its path, or standard input. -/
def runShell : Nat → Octets → List Octets → Act Ending
  | 0, _, _ => hang
  | fuel + 1, name, args => do
    modifyShell fun s => { s with
      name, args := [], functions := [], status := 0, jobs := [], latestJob := none, relatives := []
      saved := [], fatal := none
      stopOnFailure := false, refuseUnset := false, line := 1, loops := 0
      pid := s.pid + 1, forked := false
      bindings := environment s }
    match args with
    | ['-', 'c'] :: text :: rest =>
      modifyShell fun s => { s with name := rest.headD name, args := rest.drop 1 }
      endShell fuel (← evalText fuel text)
    | ('-' :: c :: cs) :: rest =>
      let letters := c :: cs
      let runs := letters.contains 'c'
      match runs, rest with
      | true, text :: rest =>
        modifyShell fun s => { s with name := rest.headD name, args := rest.drop 1 }
        for l in letters do setOption true l
        endShell fuel (← evalText fuel text)
      | true, [] =>
        complain (name ++ octets ": 0: -c requires an argument")
        return .exited 2
      | false, path :: rest => runScript fuel letters path rest
      | false, [] =>
        for l in letters do setOption true l
        endShell fuel (← evalText fuel (ofBytes (← receiveAll 0 manyBlocks [])))
    | path :: rest => runScript fuel [] path rest
    | [] => endShell fuel (← evalText fuel (ofBytes (← receiveAll 0 manyBlocks [])))

/-- Run a script by its path. -/
def runScript : Nat → Octets → Octets → List Octets → Act Ending
  | 0, _, _, _ => hang
  | fuel + 1, letters, path, args => do
    match (← files).read (pathOf path) with
    | .ok contents =>
      modifyShell fun s => { s with name := path, args }
      for l in letters do setOption true l
      endShell fuel (← evalText fuel (ofBytes contents))
    | .error e =>
      complain ((← getShell).name ++ octets ": 0: cannot open " ++ path ++ octets ": "
        ++ openReason false e)
      return .exited 2

end

/-- How many steps a script may nest or repeat before it counts as one that never ends. -/
def endless : Nat := 250000

end SourceFormat.Shell
