import SourceFormat.Subprocess.Collection

/-!
# Processes with their descendants

A job is a launched process together with every process that it has started, and the exchange with
the one that launched it.  The descendants hold the pipes for output as well, so these end only when
the last of them is gone.

Time is counted in milliseconds.  A process that sleeps goes on when its time has come; every other
step takes no time.
-/

namespace SourceFormat.Host

open Subprocess (Behaviour Ending Exchange Channel Remains)

/-- A process that has not come to its end. -/
structure Thread where
  number : Nat
  body : Behaviour
  /-- When it goes on. -/
  wake : Nat
  /-- Which of the three channels it holds. -/
  holds : List Channel

/-- A process with its descendants. -/
structure Job where
  exchange : Exchange
  threads : List Thread
  /-- The ones that have come to their end. -/
  ended : List (Nat × Ending) := []
  nextNumber : Nat := 4001
  /-- When its time is up. -/
  deadline : Option Nat := none

namespace Job

/-- The number of the process that was launched. -/
def mainNumber : Nat := 0

/-- How many bytes a pipe holds. -/
def capacity : Nat := 65536

/-- How long it takes from the launch of a process to its first step. -/
def latency : Nat := 1

/-- A job that begins now. -/
def launch (clock : Nat) (r : Subprocess.Request) (body : Behaviour) : Job :=
  { exchange := Exchange.launch capacity (r.input.map Utf8.encode)
    threads := [⟨mainNumber, body, clock + latency, [0, 1, 2]⟩]
    deadline := r.timeout.map fun d => clock + (d.nanos + 999999) / 1000000 }

/-- How the launched process ended, if it did. -/
def ending? (j : Job) : Option Ending :=
  (j.ended.find? (·.1 = mainNumber)).map (·.2)

/-- A process comes to its end and lets go of its channels. -/
def conclude (j : Job) (th : Thread) (e : Ending) : Job :=
  { j with
    exchange := th.holds.foldl Exchange.close j.exchange
    threads := j.threads.filter (·.number ≠ th.number)
    ended := (th.number, e) :: j.ended }

/-- End a process by a signal. -/
def kill (j : Job) (number signal : Nat) : Job :=
  match j.threads.find? (·.number = number) with
  | some th => j.conclude th (.signalled signal)
  | none => j

/-- A process goes on with something else. -/
def goOn (j : Job) (th : Thread) : Job :=
  { j with threads := j.threads.map fun other => if other.number = th.number then th else other }

/-- One step of a process that concerns its pipes; none if it has to wait. -/
def stepPipes (files : FileTree) (j : Job) (th : Thread) : Option (Job × FileTree) :=
  (j.exchange.stepProcess th.body).map fun (x, body) =>
    ({ j with exchange := x }.goOn { th with body }, files)

/-- One step of a process; none if it has to wait.  A channel that it does not hold has nothing for
it and takes nothing from it. -/
def stepThread (clock : Nat) (files : FileTree) (j : Job) (th : Thread) : Option (Job × FileTree) :=
  match th.body with
  | .exit e => some (j.conclude th e, files)
  | .visit f next => some (j.goOn { th with body := next files }, f files)
  | .sleep ms next =>
    some (j.goOn { th with body := next (), wake := clock + ms }, files)
  | .fork child next =>
    let n := j.nextNumber
    let holds := th.holds.filter (· ≠ 0)
    let j := { j with
      nextNumber := n + 1
      exchange := j.exchange.shareOutput (holds.contains 1) (holds.contains 2) }
    let j := j.goOn { th with body := next n }
    some ({ j with threads := j.threads ++ [⟨n, child, clock, holds⟩] }, files)
  | .await n next =>
    match j.ended.find? (·.1 = n) with
    | some (_, e) => some (j.goOn { th with body := next e }, files)
    | none =>
      if j.threads.any (·.number = n) then none
      else some (j.goOn { th with body := next (.exited 127) }, files)
  | .signal n s next =>
    some ((j.goOn { th with body := next () }).kill n s, files)
  | .close c next =>
    if th.holds.contains c then
      some ({ j with exchange := j.exchange.close c }.goOn
        { th with body := next (), holds := th.holds.filter (· ≠ c) }, files)
    else some (j.goOn { th with body := next () }, files)
  | .read c _ next =>
    if th.holds.contains c then j.stepPipes files th
    else some (j.goOn { th with body := next [] }, files)
  | .write c _ next =>
    if th.holds.contains c then j.stepPipes files th
    else some (j.goOn { th with body := next () }, files)

/-- One step of the exchange on the parent's side, in which all is moved that can be. -/
def stepExchange (j : Job) : Option Job :=
  let x := j.exchange
  ((x.stepWriter none).orElse fun _ => (x.stepOut none).orElse fun _ => x.stepErr none).map fun x =>
    { j with exchange := x }

/-- The first step that one of some processes can take. -/
def stepFirst (clock : Nat) (files : FileTree) (j : Job) : List Thread → Option (Job × FileTree)
  | [] => none
  | th :: rest =>
    if clock < th.wake then stepFirst clock files j rest
    else (stepThread clock files j th).orElse fun _ => stepFirst clock files j rest

/-- One step of anybody. -/
def step (clock : Nat) (files : FileTree) (j : Job) : Option (Job × FileTree) :=
  match j.stepExchange with
  | some j => some (j, files)
  | none => stepFirst clock files j j.threads

/-- What the job leaves behind when the launched process has ended and the exchange is over. -/
def remains? (j : Job) : Option Remains :=
  match j.ending? with
  | some e =>
    if j.exchange.isDone then
      some {
        status := .ok e
        input := j.exchange.writer.answer
        stdout := .ok j.exchange.out.bytes
        stderr := .ok j.exchange.err.bytes }
    else none
  | none => none

/-- When somebody goes on next who sleeps now. -/
def nextWake? (clock : Nat) (j : Job) : Option Nat :=
  ((j.threads.map (·.wake)).filter (clock < ·)).min?

end Job

end SourceFormat.Host
