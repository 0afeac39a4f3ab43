import SourceFormat.Subprocess.Behaviour

/-!
# The exchange between a process and its parent

Three pipes of bounded capacity connect a process with its parent: one brings its input, two take
away what it writes.  On the parent's side a writer hands over the input and then closes the pipe,
and two captures empty the other pipes until nobody holds their writing ends any more.  Each of them
acts on its own, in any order, and none of them waits for another: that is why a process that waits
for a pipe always finds its parent able to act.  How much one of them moves in one step is not up to
it: it may be any part of what could be moved that is not empty.

A process that ends early, or closes its input, refuses the rest of it.  That is no failure.
-/

namespace SourceFormat.Subprocess

/-- A pipe: what is in it, how many hold its writing end, and how many its reading end. -/
structure Pipe where
  held : Bytes := []
  writers : Nat := 1
  readers : Nat := 1
  deriving Repr, DecidableEq

/-- The parent's writer. -/
inductive Writer where
  /-- This much is still to be handed over. -/
  | writing (rest : Bytes)
  /-- Everything was handed over, and the pipe is closed. -/
  | closed
  /-- Nobody reads any more; the rest was dropped. -/
  | refused
  deriving Repr, DecidableEq

/-- Whether the writer is through. -/
def Writer.isDone : Writer → Bool
  | writing _ => false
  | _ => true

/-- One of the parent's captures: the pieces so far, latest first, and whether the end was met. -/
structure Capture where
  found : List Bytes := []
  ended : Bool := false
  deriving Repr, DecidableEq

/-- What a capture has taken away. -/
def Capture.bytes (c : Capture) : Bytes := c.found.reverse.flatten

/-- The pipes of one process and the three that serve them. -/
structure Exchange where
  capacity : Nat
  stdin : Pipe
  stdout : Pipe := {}
  stderr : Pipe := {}
  writer : Writer
  out : Capture := {}
  err : Capture := {}
  deriving Repr, DecidableEq

namespace Exchange

/-- The exchange with a process that was just launched.  Without input, its standard input has
nothing to read. -/
def launch (capacity : Nat) (input : Option Bytes) : Exchange :=
  match input with
  | none => { capacity, stdin := { writers := 0 }, writer := .closed }
  | some bs => { capacity, stdin := {}, writer := .writing bs }

/-! ## The parent's steps -/

/-- How many of `n` bytes are moved in one step in which so many are moved at most, all of them if
there is no such limit: at least one, if there are any. -/
def portion (most : Option Nat) (n : Nat) : Nat :=
  match most with
  | none => n
  | some k => min n (max 1 k)

/-- The writer hands over as much as fits or a part of it, drops the rest if nobody reads, and closes
the pipe behind the last of it. -/
def stepWriter (most : Option Nat) (x : Exchange) : Option Exchange :=
  match x.writer with
  | .writing rest =>
    if rest.isEmpty then
      some { x with writer := .closed, stdin := { x.stdin with writers := 0 } }
    else if x.stdin.readers = 0 then
      some { x with writer := .refused, stdin := { x.stdin with writers := 0 } }
    else
      let room := x.capacity - x.stdin.held.length
      if room = 0 then none
      else
        let n := portion most room
        some { x with
          writer := .writing (rest.drop n)
          stdin := { x.stdin with held := x.stdin.held ++ rest.take n } }
  | _ => none

/-- A capture takes away what is in its pipe or a part of it, or meets the end. -/
def drain (most : Option Nat) (c : Capture) (p : Pipe) : Option (Capture × Pipe) :=
  if c.ended then none
  else if p.held.isEmpty then
    if p.writers = 0 then some ({ c with ended := true }, p) else none
  else
    let n := portion most p.held.length
    some ({ c with found := p.held.take n :: c.found }, { p with held := p.held.drop n })

/-- A step of the capture of standard output. -/
def stepOut (most : Option Nat) (x : Exchange) : Option Exchange :=
  (drain most x.out x.stdout).map fun (c, p) => { x with out := c, stdout := p }

/-- A step of the capture of standard error. -/
def stepErr (most : Option Nat) (x : Exchange) : Option Exchange :=
  (drain most x.err x.stderr).map fun (c, p) => { x with err := c, stderr := p }

/-- Whether the writer and both captures are through. -/
def isDone (x : Exchange) : Bool :=
  x.writer.isDone && x.out.ended && x.err.ended

/-! ## The process's steps -/

/-- Read from a pipe; none while there is nothing to read and there may still be. -/
def readPipe (p : Pipe) (most : Nat) : Option (Bytes × Pipe) :=
  if p.held.isEmpty then (if p.writers = 0 then some ([], p) else none)
  else some (p.held.take most, { p with held := p.held.drop most })

/-- Put as much into a pipe as fits: what is left to write, and the pipe; none while it is full. -/
def fillPipe (capacity : Nat) (p : Pipe) (bs : Bytes) : Option (Bytes × Pipe) :=
  let room := capacity - p.held.length
  if bs.isEmpty then some ([], p)
  else if room = 0 then none
  else some (bs.drop room, { p with held := p.held ++ bs.take room })

/-- One fewer holds a pipe's writing end. -/
def Pipe.dropWriter (p : Pipe) : Pipe := { p with writers := p.writers - 1 }

/-- One fewer holds a pipe's reading end. -/
def Pipe.dropReader (p : Pipe) : Pipe := { p with readers := p.readers - 1 }

/-- Close one of the three channels. -/
def close (x : Exchange) : Channel → Exchange
  | 0 => { x with stdin := Pipe.dropReader x.stdin }
  | 1 => { x with stdout := Pipe.dropWriter x.stdout }
  | 2 => { x with stderr := Pipe.dropWriter x.stderr }
  | _ => x

/-- Write to one of the two channels for output. -/
def write (x : Exchange) (c : Channel) (bs : Bytes) : Option (Bytes × Exchange) :=
  match c with
  | 1 => (fillPipe x.capacity x.stdout bs).map fun (rest, p) => (rest, { x with stdout := p })
  | 2 => (fillPipe x.capacity x.stderr bs).map fun (rest, p) => (rest, { x with stderr := p })
  | _ => some ([], x)

/-- Read from standard input. -/
def read (x : Exchange) (c : Channel) (most : Nat) : Option (Bytes × Exchange) :=
  match c with
  | 0 => (readPipe x.stdin most).map fun (bs, p) => (bs, { x with stdin := p })
  | _ => some ([], x)

/-- One step of a process that concerns its pipes only; none if it has to wait, and none for every
other step. -/
def stepProcess (x : Exchange) : Behaviour → Option (Exchange × Behaviour)
  | .read c most next => (x.read c most).map fun (bs, x) => (x, next bs)
  | .write c bs next =>
    (x.write c bs).map fun (rest, x) => (x, if rest.isEmpty then next () else .write c rest next)
  | .close c next => some (x.close c, next ())
  | _ => none

/-- A process starts another one, which holds the two channels for output as well. -/
def shareOutput (x : Exchange) (out err : Bool) : Exchange :=
  { x with
    stdout := { x.stdout with writers := x.stdout.writers + out.toNat }
    stderr := { x.stderr with writers := x.stderr.writers + err.toNat } }

end Exchange

end SourceFormat.Subprocess
