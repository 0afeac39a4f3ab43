import SourceFormat.Formatting.Task

/-!
# Formatting many documents

A service formats documents, one live run each: a request for a document takes the place of the one
before it, whose caller is told that it was cancelled.  Documents are told apart by the key of their
path.

Nothing is locked across a call.  A request draws a number, puts its task into the table, marks and
then cancels the task it found there, runs its own, and takes itself out if its number is still the
one in the table; if it is not, its outcome is stale and is dropped.  A cancellation takes the task
out of the table, marks it and then cancels it.  Every one of these is a step (`Service.step`), and
the steps of different calls come in any order.
-/

namespace SourceFormat.Formatting

namespace Service

/-- Where a formatting call is. -/
inductive FormatStage where
  | arrived
  /-- It has its number and its task. -/
  | numbered
  /-- It is in the table and found this task there, which it is about to mark. -/
  | marking (stale : Nat)
  /-- It has marked this task and is about to cancel it. -/
  | recalling (stale : Nat)
  /-- Its task is about to run, or runs. -/
  | running
  /-- It has the task's outcome and is about to take itself out of the table. -/
  | leaving (outcome : Outcome)
  | returned (outcome : Outcome)
  deriving Repr, DecidableEq

/-- A call to format a document. -/
structure FormatCall where
  request : Request
  /-- Its number, once it has drawn one. -/
  id : Nat := 0
  /-- Its task, once it has one. -/
  task : Nat := 0
  stage : FormatStage := .arrived
  deriving Repr, DecidableEq

/-- The outcome of a call that has returned. -/
def FormatCall.outcome? (c : FormatCall) : Option Outcome :=
  match c.stage with
  | .returned outcome => some outcome
  | _ => none

/-- Where a cancellation is. -/
inductive CancelStage where
  | arrived
  /-- It has taken this task out of the table and is about to mark it. -/
  | marking (task : Nat)
  /-- It has marked this task and is about to cancel it. -/
  | recalling (task : Nat)
  /-- True if it is what ended the formatter. -/
  | returned (ended : Bool)
  deriving Repr, DecidableEq

/-- A call to cancel the run of a document. -/
structure CancelCall where
  key : Path.Key
  stage : CancelStage := .arrived
  deriving Repr, DecidableEq

/-- The answer of a cancellation that has returned. -/
def CancelCall.answer? (c : CancelCall) : Option Bool :=
  match c.stage with
  | .returned ended => some ended
  | _ => none

end Service

/-- A service, with every call made to it and every task made by one. -/
structure Service where
  settings : Settings
  style : Style
  nextId : Nat := 0
  /-- The number and the task of the latest request for each document, as long as it is in flight.
  -/
  inFlight : List (Path.Key × Nat × Nat) := []
  tasks : List Task := []
  formats : List Service.FormatCall := []
  cancels : List Service.CancelCall := []
  deriving Repr, DecidableEq

namespace Service

/-- What the table holds for a document. -/
def entry? (s : Service) (key : Path.Key) : Option (Nat × Nat) :=
  (s.inFlight.find? (·.1 = key)).map (·.2)

/-- Put something into the table for a document, in the place of what was there. -/
def insert (s : Service) (key : Path.Key) (id task : Nat) : Service :=
  { s with inFlight := (key, id, task) :: s.inFlight.filter (·.1 ≠ key) }

/-- Take out of the table what it holds for a document. -/
def remove (s : Service) (key : Path.Key) : Service :=
  { s with inFlight := s.inFlight.filter (·.1 ≠ key) }

/-- How many documents are in flight. -/
def inFlightCount (s : Service) : Nat := s.inFlight.length

/-- Make a call to format a document. -/
def format (s : Service) (r : Request) : Service :=
  { s with formats := s.formats ++ [{ request := r }] }

/-- Make a call to cancel the run of a document. -/
def cancel (s : Service) (p : Path) : Service :=
  { s with cancels := s.cancels ++ [{ key := p.key }] }

/-- Change one task. -/
def onTask (s : Service) (i : Nat) (f : Task → Task) : Service :=
  match s.tasks[i]? with
  | some t => { s with tasks := s.tasks.set i (f t) }
  | none => s

/-- Move a formatting call to another stage. -/
def moveFormat (s : Service) (c : Nat) (call : FormatCall) (stage : FormatStage) : Service :=
  { s with formats := s.formats.set c { call with stage } }

/-- Move a cancellation to another stage. -/
def moveCancel (s : Service) (c : Nat) (call : CancelCall) (stage : CancelStage) : Service :=
  { s with cancels := s.cancels.set c { call with stage } }

/-- A step of a call or of a session. -/
inductive Action where
  | format (r : Request)
  | cancel (p : Path)
  /-- Formatting call `c` takes its next step. -/
  | stepFormat (c : Nat)
  /-- Cancellation `c` takes its next step. -/
  | stepCancel (c : Nat)
  /-- The session of task `i` takes a step. -/
  | session (i : Nat) (e : Subprocess.Session.Event)

/-- The next step of a formatting call; none if it has to wait, or has returned. -/
def stepFormat (env : Task.Surroundings) (s : Service) (files : FileTree) (c : Nat)
    (call : FormatCall) : Option (Service × FileTree) :=
  let key := call.request.fileName.key
  match call.stage with
  | .arrived =>
    let task : Task := { request := call.request, settings := s.settings, style := s.style }
    let call := { call with id := s.nextId, task := s.tasks.length }
    some ({ s with nextId := s.nextId + 1, tasks := s.tasks ++ [task] }.moveFormat c call .numbered,
      files)
  | .numbered =>
    let stage := match s.entry? key with
      | some (_, stale) => .marking stale
      | none => .running
    some ((s.insert key call.id call.task).moveFormat c call stage, files)
  | .marking stale =>
    some ((s.onTask stale Task.markSuperseded).moveFormat c call (.recalling stale), files)
  | .recalling stale =>
    some ((s.onTask stale (·.cancel.2)).moveFormat c call .running, files)
  | .running =>
    match s.tasks[call.task]? with
    | none => none
    | some t =>
      match t.outcome? with
      | some outcome => some (s.moveFormat c call (.leaving outcome), files)
      | none =>
        if t.stage = .unrun then
          match t.begin with
          | (true, t) => some ({ s with tasks := s.tasks.set call.task t }, files)
          | (false, _) => some (s.moveFormat c call (.leaving Task.rerunOutcome), files)
        else
          (t.advance env files).map fun (t, files) =>
            ({ s with tasks := s.tasks.set call.task t }, files)
  | .leaving outcome =>
    match s.entry? key with
    | some (owner, _) =>
      if owner = call.id then some ((s.remove key).moveFormat c call (.returned outcome), files)
      else some (s.moveFormat c call (.returned .cancelled), files)
    | none => some (s.moveFormat c call (.returned .cancelled), files)
  | .returned _ => none

/-- The next step of a cancellation; none if it has returned. -/
def stepCancel (s : Service) (c : Nat) (call : CancelCall) : Option Service :=
  match call.stage with
  | .arrived =>
    match s.entry? call.key with
    | some (_, task) => some ((s.remove call.key).moveCancel c call (.marking task))
    | none => some (s.moveCancel c call (.returned false))
  | .marking task =>
    some ((s.onTask task Task.markSuperseded).moveCancel c call (.recalling task))
  | .recalling task =>
    match s.tasks[task]? with
    | some t =>
      let (ended, t) := t.cancel
      some ({ s with tasks := s.tasks.set task t }.moveCancel c call (.returned ended))
    | none => some (s.moveCancel c call (.returned false))
  | .returned _ => none

/-- One step, on the service and on the files; none if it is not possible now. -/
def step (env : Task.Surroundings) (s : Service) (files : FileTree) :
    Action → Option (Service × FileTree)
  | .format r => some (s.format r, files)
  | .cancel p => some (s.cancel p, files)
  | .stepFormat c => s.formats[c]?.bind fun call => s.stepFormat env files c call
  | .stepCancel c => s.cancels[c]?.bind fun call => (s.stepCancel c call).map (·, files)
  | .session i e =>
    s.tasks[i]?.bind fun t =>
      (t.sessionStep e).map fun t => ({ s with tasks := s.tasks.set i t }, files)

end Service

end SourceFormat.Formatting
