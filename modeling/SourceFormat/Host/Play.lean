import SourceFormat.Host.Job
import SourceFormat.Host.Machine
import SourceFormat.Host.System
import SourceFormat.Shell.Program

/-!
# Running machines on a host

A host has files, a clock and the processes of its machine's sessions.  It lets everybody go on
until nobody can (`settle`), and only then moves the clock to the next time at which something
happens.  At one time, deadlines pass before processes go on.

So the order of steps is fixed here, where a real system leaves it open; what a machine does in any
order is the business of the machine's own steps.
-/

namespace SourceFormat.Host

open Subprocess (Session Request Behaviour)
open Formatting (Task)

/-- What a host is made of besides its machine and its processes. -/
structure World where
  files : FileTree := system
  /-- Milliseconds since the beginning. -/
  clock : Nat := 0
  /-- Where temporary files go. -/
  temporary : Path := ⟨Utf8.encode "/tmp"⟩

namespace World

/-- The variables that every process has. -/
def environment (w : World) : List (String × Bytes) :=
  [("PATH", Utf8.encode (":".intercalate Shell.searchPath)), ("HOME", Utf8.encode "/root"),
   ("TMPDIR", w.temporary.bytes),
   ("PWD", toBytes (Shell.pathText w.files.workingDirectory))]
where
  /-- The bytes of a path. -/
  toBytes (cs : Shell.Octets) : Bytes := Shell.toBytes cs

/-- The answer to an attempt to launch a process. -/
def launch (w : World) (r : Request) : Except SystemError Behaviour :=
  Shell.launch w.files w.environment r

/-- What a machine's calls need of the host. -/
def surroundings (w : World) : Task.Surroundings where
  temporary := w.temporary
  launch r := (w.launch r).map fun _ => ()

end World

/-- A machine on a host. -/
structure Play (σ : Type) where
  machine : σ
  world : World
  /-- The processes, by the numbers of their sessions. -/
  jobs : List (Nat × Job) := []

namespace Play

variable {σ : Type}

/-- The process of a session. -/
def job? (p : Play σ) (i : Nat) : Option Job := (p.jobs.find? (·.1 = i)).map (·.2)

/-- Put another process in the place of a session's. -/
def setJob (p : Play σ) (i : Nat) (j : Job) : Play σ :=
  { p with jobs := p.jobs.map fun entry => if entry.1 = i then (i, j) else entry }

/-- Let the process of a session begin that was just started. -/
def begin (p : Play σ) (i : Nat) (s : Session) : Option (Play σ) :=
  if (p.job? i).isSome then none
  else
    match s.supervisor, s.request with
    | .watching, some r =>
      match p.world.launch r with
      | .ok body => some { p with jobs := p.jobs ++ [(i, Job.launch p.world.clock r body)] }
      | .error _ => none
    | _, _ => none

/-- What happens to a session next, and what becomes of its process. -/
def eventOf (clock : Nat) (s : Session) (j : Job) : Option (Session.Event × Job) :=
  let due := (j.deadline.map fun d => decide (d ≤ clock)).getD false
  if s.signalling then some (.signal, j) else
  match s.supervisor with
  | .watching =>
    if s.permit then some (.noticeCancel, j)
    else if due && !s.expired then some (.deadlinePasses, j)
    else if s.expired then some (.noticeDeadline, j)
    else if s.life = .running ∧ j.ending?.isSome then some (.processEnds, j)
    else if s.life = .ended then some (.noticeEnd, j)
    else none
  | .killing _ =>
    if s.life = .running then some (.processEnds, j.kill Job.mainNumber Shell.Signal.kill)
    else some (.reap, j)
  | .draining =>
    if s.permit then some (.noticeCancel, j)
    else if due && !s.expired then some (.deadlinePasses, j)
    else if s.expired then some (.noticeDeadline, j)
    else j.remains?.map fun r => (.collect r.collected, j)
  | .concluding _ => some (.conclude, j)
  | .delivering _ => some (.deliver, j)
  | .absent | .returned _ => none

/-- The first thing that happens to one of some sessions. -/
def stepSessions (M : Machine σ) (p : Play σ) : Nat → List Session → Option (Play σ)
  | _, [] => none
  | i, s :: rest =>
    let here := (p.begin i s).orElse fun _ =>
      (p.job? i).bind fun j => (eventOf p.world.clock s j).bind fun (e, j) =>
        (M.notify p.machine i e).map fun machine => { p with machine }.setJob i j
    here.orElse fun _ => stepSessions M p (i + 1) rest

/-- The first step of one of some processes. -/
def stepJobs (p : Play σ) : List (Nat × Job) → Option (Play σ)
  | [] => none
  | (i, j) :: rest =>
    match j.step p.world.clock p.world.files with
    | some (j, files) => some ({ p with world := { p.world with files } }.setJob i j)
    | none => stepJobs p rest

/-- One step of anybody: of the sessions, of the calls, of the processes. -/
def step (M : Machine σ) (p : Play σ) : Option (Play σ) :=
  (stepSessions M p 0 (M.sessions p.machine)).orElse fun _ =>
    ((M.advance p.world.surroundings p.machine p.world.files).map fun (machine, files) =>
      { p with machine, world := { p.world with files } }).orElse fun _ => stepJobs p p.jobs

/-- Let everybody go on until nobody can; `fuel` bounds the number of steps. -/
def settle (M : Machine σ) : Nat → Play σ → Play σ
  | 0, p => p
  | fuel + 1, p =>
    match p.step M with
    | some p => settle M fuel p
    | none => p

/-- How many steps are taken at one time. -/
def manySteps : Nat := 10000000

/-- When something happens next that nobody can bring about by going on. -/
def nextTime? (M : Machine σ) (p : Play σ) : Option Nat :=
  let wakes := p.jobs.filterMap fun (_, j) => j.nextWake? p.world.clock
  let deadlines := (M.sessions p.machine).zipIdx.filterMap fun (s, i) =>
    match s.supervisor with
    | .watching | .draining =>
      ((p.job? i).bind (·.deadline)).filter (p.world.clock < ·)
    | _ => none
  (wakes ++ deadlines).min?

/-- Go on until something holds, but not beyond a time, if one is given.  `fuel` bounds how often
the clock moves. -/
def waitFor (M : Machine σ) (holds : Play σ → Bool) (limit : Option Nat) : Nat → Play σ → Play σ
  | 0, p => p
  | fuel + 1, p =>
    let p := p.settle M manySteps
    if holds p then p
    else
      match p.nextTime? M, limit with
      | some t, none => waitFor M holds limit fuel { p with world := { p.world with clock := t } }
      | some t, some l =>
        if t ≤ l then waitFor M holds limit fuel { p with world := { p.world with clock := t } }
        else { p with world := { p.world with clock := max l p.world.clock } }
      | none, some l => { p with world := { p.world with clock := max l p.world.clock } }
      | none, none => p

/-- How often the clock moves at most. -/
def manyTimes : Nat := 1000000

/-- Go on until something holds. -/
def until_ (M : Machine σ) (holds : Play σ → Bool) (p : Play σ) : Play σ :=
  p.waitFor M holds none manyTimes

/-- Go on for so many milliseconds. -/
def sleepFor (M : Machine σ) (ms : Nat) (p : Play σ) : Play σ :=
  (p.waitFor M (fun _ => false) (some (p.world.clock + ms)) manyTimes).settle M manySteps

/-- How long somebody waits for something to happen. -/
def patience : Nat := 5000

/-- Go on until something holds, but not for too long; the flag says whether it holds. -/
def await (M : Machine σ) (holds : Play σ → Bool) (p : Play σ) : Bool × Play σ :=
  let p := p.waitFor M holds (some (p.world.clock + patience)) manyTimes
  (holds p, p)

/-- Change the machine, and let everybody go on as far as they can without time passing. -/
def act (M : Machine σ) (f : σ → σ) (p : Play σ) : Play σ :=
  { p with machine := f p.machine }.settle M manySteps

/-- The files when everything has been ended: what was generated for runs that are not over is
removed. -/
def finish (M : Machine σ) (p : Play σ) : FileTree :=
  (M.held p.machine).foldl Config.release p.world.files

end Play

end SourceFormat.Host
