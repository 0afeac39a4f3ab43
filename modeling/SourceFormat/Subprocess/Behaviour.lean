import SourceFormat.Files.Tree

/-!
# What a process does

A running process is known by what it asks of the system, one thing after another, and by how it
goes on with each answer: a `Behaviour` is the tree of these.  It can read its standard input and
write to its standard output and error, close them, look at and change files, sleep, start another
process and wait for it or end it, and come to an end.

What follows a request is worked out only when the request was met, so the tree may be as deep as a
process is long.

Channels are numbered.  Number 0 is standard input, 1 standard output and 2 standard error; larger
numbers are the pipes that a process has set up among its own children, and nobody outside sees what
goes through those.
-/

namespace SourceFormat.Subprocess

/-- A channel, by its number. -/
abbrev Channel := Nat

/-- How a process came to its end. -/
inductive Ending where
  | exited (code : Nat)
  | signalled (number : Nat)
  deriving Repr, DecidableEq

namespace Ending

/-- The exit code as the outside world sees it: one byte, or -1 behind a signal. -/
def exitCode : Ending → Int
  | exited code => (code % 256 : Nat)
  | signalled _ => -1

/-- The status as the parent shell sees it. -/
def status : Ending → Nat
  | exited code => code % 256
  | signalled number => 128 + number

end Ending

/-- A process, by what it asks of the system and how it goes on with each answer. -/
inductive Behaviour where
  | exit (ending : Ending)
  /-- Read at most so many bytes; no bytes at all are the end of input. -/
  | read (channel : Channel) (most : Nat) (next : Bytes → Behaviour)
  | write (channel : Channel) (bytes : Bytes) (next : Unit → Behaviour)
  | close (channel : Channel) (next : Unit → Behaviour)
  /-- Change the files and go on with what they were before. -/
  | visit (change : FileTree → FileTree) (next : FileTree → Behaviour)
  | sleep (millis : Nat) (next : Unit → Behaviour)
  /-- Start another process and go on with its number. -/
  | fork (child : Behaviour) (next : Nat → Behaviour)
  /-- Wait for a process and go on with its ending. -/
  | await (child : Nat) (next : Ending → Behaviour)
  /-- End a process by a signal. -/
  | signal (child : Nat) (number : Nat) (next : Unit → Behaviour)

namespace Behaviour

/-- The number of the signal for writing to a pipe that nobody reads. -/
def brokenPipe : Nat := 13

/-- Run a process up to its end while nobody reads channel `n`: it ends at its first write there.
Go on behind it. -/
def unread (n : Channel) (next : Ending → Behaviour) : Behaviour → Behaviour
  | exit e => next e
  | read c most k => read c most fun bs => unread n next (k bs)
  | write c bs k =>
    if c = n then (if bs.isEmpty then unread n next (k ()) else next (.signalled brokenPipe))
    else write c bs fun _ => unread n next (k ())
  | close c k => if c = n then unread n next (k ()) else close c fun _ => unread n next (k ())
  | visit f k => visit f fun t => unread n next (k t)
  | sleep ms k => sleep ms fun _ => unread n next (k ())
  | fork child k => fork child fun i => unread n next (k i)
  | await i k => await i fun e => unread n next (k e)
  | signal i s k => signal i s fun _ => unread n next (k ())

/-- Run a process up to its first write to channel `n`, or to its end. -/
def untilWrite (n : Channel) (onData : Bytes → (Unit → Behaviour) → Behaviour)
    (onEnd : Ending → Behaviour) : Behaviour → Behaviour
  | exit e => onEnd e
  | read c most k => read c most fun bs => untilWrite n onData onEnd (k bs)
  | write c bs k =>
    if c = n then (if bs.isEmpty then untilWrite n onData onEnd (k ()) else onData bs k)
    else write c bs fun _ => untilWrite n onData onEnd (k ())
  | close c k =>
    if c = n then unread n onEnd (k ()) else close c fun _ => untilWrite n onData onEnd (k ())
  | visit f k => visit f fun t => untilWrite n onData onEnd (k t)
  | sleep ms k => sleep ms fun _ => untilWrite n onData onEnd (k ())
  | fork child k => fork child fun i => untilWrite n onData onEnd (k i)
  | await i k => await i fun e => untilWrite n onData onEnd (k e)
  | signal i s k => signal i s fun _ => untilWrite n onData onEnd (k ())

/-- Two processes with a pipe between them: what `left` writes to channel `n` is what the process
given last reads there.  `left` is none once it has come to its end, and `held` is what is in the
pipe.  The one that reads runs until it needs more than that.  Go on behind both, with the ending of
the one that reads. -/
def pipe (n : Channel) (left : Option Behaviour) (held : Bytes) (next : Ending → Behaviour) :
    Behaviour → Behaviour
  | exit e =>
    match left with
    | none => next e
    | some l => unread n (fun _ => next e) l
  | read c most k =>
    if c = n then
      if held.isEmpty then
        match left with
        | none => pipe n none [] next (k [])
        | some l =>
          untilWrite n (fun bs l => pipe n (some (l ())) (bs.drop most) next (k (bs.take most)))
            (fun _ => pipe n none [] next (k [])) l
      else pipe n left (held.drop most) next (k (held.take most))
    else read c most fun bs => pipe n left held next (k bs)
  | write c bs k => write c bs fun _ => pipe n left held next (k ())
  | close c k => close c fun _ => pipe n left held next (k ())
  | visit f k => visit f fun t => pipe n left held next (k t)
  | sleep ms k => sleep ms fun _ => pipe n left held next (k ())
  | fork child k => fork child fun i => pipe n left held next (k i)
  | await i k => await i fun e => pipe n left held next (k e)
  | signal i s k => signal i s fun _ => pipe n left held next (k ())

/-- Run a process up to its end and go on behind it. -/
def follow (next : Ending → Behaviour) : Behaviour → Behaviour
  | exit e => next e
  | read c most k => read c most fun bs => follow next (k bs)
  | write c bs k => write c bs fun _ => follow next (k ())
  | close c k => close c fun _ => follow next (k ())
  | visit f k => visit f fun t => follow next (k t)
  | sleep ms k => sleep ms fun _ => follow next (k ())
  | fork child k => fork child fun i => follow next (k i)
  | await i k => await i fun e => follow next (k e)
  | signal i s k => signal i s fun _ => follow next (k ())

/-- Run a process and collect what it writes to channel `n`.  `found` are the pieces so far, latest
first. -/
def collect (n : Channel) (next : Bytes → Ending → Behaviour) (found : List Bytes) :
    Behaviour → Behaviour
  | exit e => next found.reverse.flatten e
  | read c most k => read c most fun bs => collect n next found (k bs)
  | write c bs k =>
    if c = n then collect n next (bs :: found) (k ())
    else write c bs fun _ => collect n next found (k ())
  | close c k => close c fun _ => collect n next found (k ())
  | visit f k => visit f fun t => collect n next found (k t)
  | sleep ms k => sleep ms fun _ => collect n next found (k ())
  | fork child k => fork child fun i => collect n next found (k i)
  | await i k => await i fun e => collect n next found (k e)
  | signal i s k => signal i s fun _ => collect n next found (k ())

end Behaviour

end SourceFormat.Subprocess
