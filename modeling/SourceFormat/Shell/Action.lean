import SourceFormat.Files.Access
import SourceFormat.Subprocess.Behaviour
import SourceFormat.Shell.Command

/-!
# What a shell does

A shell has variables, arguments, functions and a table of channels.  An `Act` is something it does:
it takes the shell as it is, asks the system for what it needs, and goes on with a result and the
shell as it is then.  Everything that a script and the utilities in it do is put together from the
few acts below; run to its end, an act is the behaviour of a process.
-/

namespace SourceFormat

open Subprocess (Behaviour Ending)

namespace Shell

/-- Where a channel leads. -/
inductive Target where
  /-- A channel of the process itself. -/
  | channel (n : Nat)
  /-- To the end of a file. -/
  | file (at_ : Location)
  /-- From a text that was read beforehand, by its number. -/
  | buffer (id : Nat)
  | null
  | zero
  | full
  deriving Repr, DecidableEq

end Shell

/-- A shell. -/
structure Shell where
  /-- What the script calls itself. -/
  name : Shell.Octets
  args : List Shell.Octets := []
  bindings : List (Shell.Octets × Shell.Octets) := []
  exported : List Shell.Octets := []
  functions : List (Shell.Octets × Shell.Command) := []
  /-- The status of the latest command. -/
  status : Nat := 0
  targets : List (Nat × Shell.Target) := [(0, .channel 0), (1, .channel 1), (2, .channel 2)]
  buffers : List (Nat × Bytes) := []
  nextBuffer : Nat := 0
  nextChannel : Nat := 3
  texts : List Shell.HereText := []
  /-- Commands to run at a signal, by its name. -/
  traps : List (Shell.Octets × Shell.Octets) := []
  /-- Commands of traps that are about to be run. -/
  sprung : List Shell.Octets := []
  /-- The status of the latest command between parentheses that the current words hold. -/
  substituted : Option Nat := none
  /-- The number of the process, below those of the ones it starts. -/
  pid : Nat := 3000
  /-- Whether it was forked off from the shell with that number. -/
  forked : Bool := false
  /-- The processes in the background, latest first, with the statuses of those that were waited
  for. -/
  jobs : List (Nat × Option Nat) := []
  /-- The process that was last put into the background. -/
  latestJob : Option Nat := none
  /-- The processes in the background of the shells that this one was forked off from. -/
  relatives : List Nat := []
  /-- What the variables held that belong to the function being run. -/
  saved : List (Shell.Octets × Option Shell.Octets) := []
  workingDirectory : Location := []
  /-- How many loops are being run. -/
  loops : Nat := 0
  line : Nat := 1
  /-- End at the first command that fails. -/
  stopOnFailure : Bool := false
  /-- A variable that is not set is a mistake. -/
  refuseUnset : Bool := false
  /-- Set by a mistake in a word: the script ends with this status. -/
  fatal : Option Nat := none

namespace Shell

/-- How the script goes on behind a command. -/
inductive Flow where
  | next
  /-- Leave so many loops. -/
  | leave (loops : Nat)
  /-- Leave all but the last of so many loops and go on with that one. -/
  | again (loops : Nat)
  /-- Leave the function. -/
  | back
  /-- End the shell. -/
  | exit (status : Nat)
  deriving Repr, DecidableEq

/-- Something that a shell does. -/
def Act (α : Type) : Type := Shell → (α → Shell → Behaviour) → Behaviour

instance : Monad Act where
  pure a := fun s k => k a s
  bind x f := fun s k => x s fun a s => f a s k

/-- Look at the shell. -/
def getShell : Act Shell := fun s k => k s s

/-- Change the shell. -/
def modifyShell (f : Shell → Shell) : Act Unit := fun s k => k () (f s)

/-- End the process. -/
def stop {α : Type} (e : Ending) : Act α := fun _ _ => .exit e

/-- Go on for ever without doing anything that shows. -/
def hang {α : Type} : Act α := fun _ _ => .sleep 1000000000000 fun _ => .exit (.exited 0)

/-- Sleep. -/
def pause (millis : Nat) : Act Unit := fun s k => .sleep millis fun _ => k () s

/-- The behaviour of an act that ends a process. -/
def Act.behaviour (x : Act Ending) (s : Shell) : Behaviour := x s fun e _ => .exit e

/-- Start another process. -/
def start (child : Behaviour) : Act Nat := fun s k => .fork child fun i => k i s

/-- Wait for a process. -/
def waitFor (child : Nat) : Act Ending := fun s k => .await child fun e => k e s

/-- End a process by a signal. -/
def signalTo (child number : Nat) : Act Unit := fun s k => .signal child number fun _ => k () s

/-- Run a process and collect what it writes to a channel. -/
def collected (n : Nat) (body : Behaviour) : Act (Bytes × Ending) := fun s k =>
  Behaviour.collect n (fun bs e => k (bs, e) s) [] body

/-! ## Files -/

/-- A tree as this shell sees it, from its own working directory. -/
def view (s : Shell) (t : FileTree) : FileTree := { t with workingDirectory := s.workingDirectory }

/-- The files. -/
def files : Act FileTree := fun s k => .visit (fun t => t) fun t => k (view s t) s

/-- Change the files. -/
def change (f : FileTree → Except SystemError FileTree) : Act (Except SystemError Unit) :=
  fun s k =>
  .visit
    (fun t =>
      match f (view s t) with
      | .ok t' => { t' with workingDirectory := t.workingDirectory }
      | .error _ => t)
    fun t => k ((f (view s t)).map fun _ => ()) s

/-- A path that a script spells. -/
def pathOf (cs : Octets) : Path := ⟨toBytes cs⟩

/-! ## Channels -/

/-- Where a channel leads; none if it is closed. -/
def target? (s : Shell) (channel : Nat) : Option Target :=
  (s.targets.find? (·.1 = channel)).map (·.2)

/-- Let a channel lead somewhere else, or close it. -/
def setTarget (channel : Nat) (target : Option Target) : Act Unit :=
  modifyShell fun s =>
    let others := s.targets.filter (·.1 ≠ channel)
    { s with targets := match target with
      | some t => (channel, t) :: others
      | none => others }

/-- Write to a channel; the flag says whether that was possible. -/
def emit (channel : Nat) (bs : Bytes) : Act Bool := do
  match target? (← getShell) channel with
  | none => return false
  | some (.channel n) => fun s k => .write n bs fun _ => k true s
  | some (.file at_) =>
    let r ← change fun t =>
      match t.node? at_ with
      | some (.file before executable) => .ok (t.set at_ (.file (before ++ bs) executable))
      | _ => .ok t
    return r.toBool
  | some (.buffer _) => return false
  | some .null => return true
  | some .zero => return true
  | some .full => return bs.isEmpty

/-- Write characters to standard output. -/
def say (cs : Octets) : Act Bool := emit 1 (toBytes cs)

/-- Write a line to standard error. -/
def complain (text : Octets) : Act Unit := do
  let _ ← emit 2 (toBytes (text ++ ['\n']))

/-- Read from a channel; no bytes at all are the end of input. -/
def receive (channel most : Nat) : Act Bytes := do
  let s ← getShell
  match target? s channel with
  | some (.channel n) => fun s k => .read n most fun bs => k bs s
  | some (.buffer id) =>
    let held := ((s.buffers.find? (·.1 = id)).map (·.2)).getD []
    modifyShell fun s => { s with
      buffers := (id, held.drop most) :: s.buffers.filter (·.1 ≠ id) }
    return held.take most
  | some .zero => return List.replicate most 0
  | some .full => return List.replicate most 0
  | some (.file _) => return []
  | some .null => return []
  | none => return []

/-- How much is read at once. -/
def blockSize : Nat := 65536

/-- Everything there is to read from a channel.  `fuel` bounds the number of blocks. -/
def receiveAll (channel : Nat) : Nat → List Bytes → Act Bytes
  | 0, found => return found.reverse.flatten
  | fuel + 1, found => do
    let bs ← receive channel blockSize
    if bs.isEmpty then return found.reverse.flatten
    else receiveAll channel fuel (bs :: found)

/-- How many blocks a utility reads at most. -/
def manyBlocks : Nat := 100000

/-- Keep bytes for reading and let a channel lead there. -/
def feedFrom (channel : Nat) (bs : Bytes) : Act Unit := do
  let id := (← getShell).nextBuffer
  modifyShell fun s => { s with nextBuffer := id + 1, buffers := (id, bs) :: s.buffers }
  setTarget channel (some (.buffer id))

/-! ## Variables -/

/-- The value of a variable. -/
def lookup? (s : Shell) (name : Octets) : Option Octets :=
  (s.bindings.find? (·.1 = name)).map (·.2)

/-- Give a variable a value. -/
def assign (name value : Octets) : Act Unit :=
  modifyShell fun s => { s with
    bindings := (name, value) :: s.bindings.filter (·.1 ≠ name) }

/-- The shell's own complaint. -/
def grumble (text : Octets) : Act Unit := do
  let s ← getShell
  complain (s.name ++ octets ": " ++ octets (toString s.line) ++ octets ": " ++ text)

/-- The words for a failure of the system. -/
def reason (e : SystemError) : Octets :=
  match e with
  | .os code => octets (SystemError.describe code)
  | .other text => octets text

end Shell

end SourceFormat
