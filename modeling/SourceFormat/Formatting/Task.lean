import SourceFormat.Config.Location
import SourceFormat.Formatting.Request
import SourceFormat.Subprocess.Session

/-!
# One formatting run

A task formats one document once.  Its run settles the option file, looks whether something newer
has taken its place, starts the formatter, looks again, waits for the outcome, lets go of the option
file and is done.  Each of these is a step of its own (`Task.advance`), and callers may act between
any two: `cancel` ends the formatter if it is running, and `markSuperseded` followed by `cancel` is
how something newer takes the task's place.

The mark is set before the cancellation and looked at after the start.  So whichever of the two
sides comes first, one of them sees the other: a marked task never keeps a formatter running.

A second run of the same task is refused and changes nothing.
-/

namespace SourceFormat.Formatting

open Subprocess (Session)

/-- The states of a task.  The last three are final. -/
inductive TaskState where
  | idle
  | resolvingConfig
  | formatting
  | completed
  | failed
  | cancelled
  deriving Repr, DecidableEq

/-- The state that an outcome leaves a task in. -/
def Outcome.state : Outcome → TaskState
  | completed _ => .completed
  | failed _ => .failed
  | cancelled => .cancelled

namespace Task

/-- Where the run of a task is: what it does next. -/
inductive Stage where
  /-- Nobody has run the task. -/
  | unrun
  /-- Settle the option file. -/
  | resolving
  /-- Look for the mark. -/
  | checking (config : Config.Resolved)
  /-- Move the state to `formatting`. -/
  | entering (config : Config.Resolved)
  /-- Start the formatter. -/
  | starting (config : Config.Resolved)
  /-- Look for the mark again. -/
  | guarding (config : Config.Resolved)
  /-- Cancel the formatter, because the mark was there. -/
  | recalling (config : Config.Resolved)
  /-- Wait for the outcome of the session. -/
  | awaiting (config : Config.Resolved)
  /-- Let go of the option file. -/
  | closing (config : Config.Resolved) (outcome : Outcome)
  /-- Move the state to a final one; an option file may still be held. -/
  | finishing (held : Option Config.Resolved) (outcome : Outcome)
  /-- Let go of the option file on the way out. -/
  | unwinding (config : Config.Resolved) (outcome : Outcome)
  | returned (outcome : Outcome)
  deriving Repr, DecidableEq

end Task

/-- A task. -/
structure Task where
  request : Request
  settings : Settings
  style : Style
  state : TaskState := .idle
  session : Session := {}
  /-- The mark of something newer. -/
  superseded : Bool := false
  stage : Task.Stage := .unrun
  deriving Repr, DecidableEq

namespace Task

/-- What a run of a task that has been run before comes to. -/
def rerunOutcome : Outcome := .failed (.general "task has already run")

/-- Begin the run; the flag says whether this is the first one. -/
def begin (t : Task) : Bool × Task :=
  if t.state = .idle then (true, { t with state := .resolvingConfig, stage := .resolving })
  else (false, t)

/-- End the formatter if it is running: true if this is what ended it. -/
def cancel (t : Task) : Bool × Task :=
  let (ended, session) := t.session.cancel
  (ended, { t with session })

/-- Set the mark of something newer. -/
def markSuperseded (t : Task) : Task := { t with superseded := true }

/-- The outcome of a run that has returned. -/
def outcome? (t : Task) : Option Outcome :=
  match t.stage with
  | .returned outcome => some outcome
  | _ => none

/-- The option file that the run holds. -/
def config? (t : Task) : Option Config.Resolved :=
  match t.stage with
  | .checking c | .entering c | .starting c | .guarding c | .recalling c | .awaiting c => some c
  | .closing c _ | .unwinding c _ => some c
  | .finishing held _ => held
  | .unrun | .resolving | .returned _ => none

/-- What a run needs of its surroundings: where temporary files go, and the system's answer to an
attempt to launch a process. -/
structure Surroundings where
  temporary : Config.Storage
  launch : Subprocess.Request → Except SystemError Unit

/-- The next step of the run, on the task and on the files; none if there is none, or if it has to
wait. -/
def advance (env : Surroundings) (t : Task) (files : FileTree) : Option (Task × FileTree) :=
  match t.stage with
  | .unrun => none
  | .resolving =>
    match Config.resolve files env.temporary t.request.projectRoot t.settings t.style with
    | (files, .ok config) => some ({ t with stage := .checking config }, files)
    | (files, .error e) =>
      some ({ t with stage := .finishing none (.failed (.general e.message)) }, files)
  | .checking config =>
    if t.superseded then some ({ t with stage := .finishing (some config) .cancelled }, files)
    else some ({ t with stage := .entering config }, files)
  | .entering config => some ({ t with state := .formatting, stage := .starting config }, files)
  | .starting config =>
    let process := t.request.process t.settings config.location.path
    match t.session.start process (env.launch process) with
    | (.ok (), session) => some ({ t with session, stage := .guarding config }, files)
    | (.error e, session) =>
      some ({ t with
        session, stage := .finishing (some config) (.failed (.general e.message)) }, files)
  | .guarding config =>
    if t.superseded then some ({ t with stage := .recalling config }, files)
    else some ({ t with stage := .awaiting config }, files)
  | .recalling config => some ({ t.cancel.2 with stage := .awaiting config }, files)
  | .awaiting config =>
    t.session.outcome?.map fun outcome =>
      ({ t with stage := .closing config (Outcome.ofRun outcome) }, files)
  | .closing config outcome =>
    some ({ t with stage := .finishing none outcome }, Config.release files config)
  | .finishing held outcome =>
    some ({ t with
      state := outcome.state
      stage := match held with
        | some config => .unwinding config outcome
        | none => .returned outcome }, files)
  | .unwinding config outcome =>
    some ({ t with stage := .returned outcome }, Config.release files config)
  | .returned _ => none

/-- A step of the session. -/
def sessionStep (t : Task) (e : Session.Event) : Option Task :=
  (t.session.step e).map fun session => { t with session }

end Task

end SourceFormat.Formatting
