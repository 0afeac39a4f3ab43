import SourceFormat.Subprocess.Request

/-!
# Sessions

A session runs at most one process and comes to at most one outcome.  Three parties act on it, each
in steps of its own: callers, who start it and cancel it; its supervisor, who waits for a
cancellation, for the deadline and for the process, and delivers the outcome; and the process with
the clock, whose steps nobody controls.  `Session.step` is one step of any of them, and every order
of steps is possible.

The state is a single cell.  Whoever moves it out of `started` has decided how the session ended:
`cancel` does so for a caller, who then leaves the supervisor a *permit*, to be found at its next
wait; the supervisor does so itself before it delivers anything.  So a delivery and a cancellation
exclude each other, and a session that was cancelled delivers nothing.
-/

namespace SourceFormat.Subprocess

/-- The states of a session.  `terminated` and `cancelled` are final. -/
inductive SessionState where
  | created
  /-- The process was launched and has no outcome yet. -/
  | started
  | terminated
  | cancelled
  deriving Repr, DecidableEq

/-- Whether a state is final. -/
def SessionState.isTerminal : SessionState → Bool
  | terminated | cancelled => true
  | _ => false

/-- What the end of an exchange leaves the supervisor with. -/
inductive Collected where
  | exited (result : Result)
  /-- The end of the process could not be learnt. -/
  | unknown (source : SystemError)
  /-- The input could not be handed over. -/
  | unwritten (source : SystemError)
  /-- The output could not be read. -/
  | unread (source : SystemError)
  deriving Repr, DecidableEq

/-- What a supervisor delivers. -/
inductive Delivery where
  | exited (result : Result)
  | failed (error : RunError)
  deriving Repr, DecidableEq

/-- What is delivered behind an exchange. -/
def Collected.delivery : Collected → Delivery
  | exited r => .exited r
  | unknown source => .failed (.wait source)
  | unwritten source => .failed (.inputWrite source)
  | unread source => .failed (.capture source)

/-- The outcome that a caller sees. -/
def Delivery.outcome : Delivery → Except RunError Outcome
  | exited r => .ok (.exited r)
  | failed e => .error e

/-- Where the supervisor is. -/
inductive Supervisor where
  /-- There is none yet. -/
  | absent
  /-- It waits for a cancellation, the deadline or the end of the process. -/
  | watching
  /-- It has killed the process and waits until it is gone.  `expired` tells the deadline from a
  cancellation. -/
  | killing (expired : Bool)
  /-- The process is gone; it waits for a cancellation, the deadline or the end of the exchange. -/
  | draining
  /-- It has something to deliver and is about to move the state. -/
  | concluding (delivery : Delivery)
  /-- It has moved the state and is about to deliver. -/
  | delivering (delivery : Delivery)
  /-- It has returned, with or without having delivered. -/
  | returned (delivered : Option Delivery)
  deriving Repr, DecidableEq

/-- The life of the process. -/
inductive Life where
  | unborn
  | running
  /-- It has come to an end that nobody has taken note of. -/
  | ended
  /-- The supervisor has taken note of its end. -/
  | reaped
  deriving Repr, DecidableEq

/-- A session. -/
structure Session where
  state : SessionState := .created
  /-- Whether somebody has cancelled and is about to leave the permit. -/
  signalling : Bool := false
  /-- A permit that the supervisor has not found yet. -/
  permit : Bool := false
  request : Option Request := none
  life : Life := .unborn
  /-- Whether the deadline has passed. -/
  expired : Bool := false
  supervisor : Supervisor := .absent
  deriving Repr, DecidableEq

namespace Session

/-- Move the state on from `started`; the flag says whether it was there. -/
def finish (s : Session) (next : SessionState) : Bool × Session :=
  if s.state = .started then (true, { s with state := next }) else (false, s)

/-- A caller cancels: true if this is what ended the session.  The permit comes with the step
`signal`. -/
def cancel (s : Session) : Bool × Session :=
  match s.finish .cancelled with
  | (true, s) => (true, { s with signalling := true })
  | (false, s) => (false, s)

/-- A caller starts the session.  `launch` is the system's answer to the attempt to launch the
process, which is made only for a valid request and a session that was never started. -/
def start (s : Session) (r : Request) (launch : Except SystemError Unit) :
    Except RunError Unit × Session :=
  match r.validate with
  | .error e => (.error e, s)
  | .ok () =>
    if s.state ≠ .created then (.error .alreadyStarted, s)
    else
      match launch with
      | .error source => (.error (.spawn r.executable source), { s with state := .terminated })
      | .ok () =>
        (.ok (), { s with
          state := .started, request := some r, life := .running, supervisor := .watching })

/-- The limit of the request. -/
def limit (s : Session) : Option Duration :=
  s.request.bind (·.timeout)

/-- A step that the supervisor, the process or the clock takes, or the one who cancelled. -/
inductive Event where
  /-- The one who cancelled leaves the permit. -/
  | signal
  /-- The process comes to its end. -/
  | processEnds
  /-- The deadline passes. -/
  | deadlinePasses
  /-- The supervisor finds the permit. -/
  | noticeCancel
  /-- The supervisor finds that the deadline has passed. -/
  | noticeDeadline
  /-- The supervisor finds that the process has ended. -/
  | noticeEnd
  /-- The killed process is gone. -/
  | reap
  /-- The exchange has ended. -/
  | collect (found : Collected)
  /-- The supervisor moves the state. -/
  | conclude
  /-- The supervisor delivers. -/
  | deliver
  deriving Repr, DecidableEq

/-- What the supervisor delivers when the deadline has passed. -/
def timeoutDelivery (s : Session) : Delivery :=
  .failed (.timedOut (s.limit.getD ⟨0⟩))

/-- One step; none if it is not possible now. -/
def step (s : Session) : Event → Option Session
  | .signal =>
    if s.signalling then some { s with signalling := false, permit := true } else none
  | .processEnds =>
    if s.life = .running then some { s with life := .ended } else none
  | .deadlinePasses =>
    if s.limit.isSome && s.supervisor ≠ .absent then some { s with expired := true } else none
  | .noticeCancel =>
    if s.permit then
      match s.supervisor with
      | .watching => some { s with permit := false, supervisor := .killing false }
      | .draining => some { s with permit := false, supervisor := .returned none }
      | _ => none
    else none
  | .noticeDeadline =>
    if s.expired then
      match s.supervisor with
      | .watching => some { s with supervisor := .killing true }
      | .draining => some { s with supervisor := .concluding s.timeoutDelivery }
      | _ => none
    else none
  | .noticeEnd =>
    if s.life = .ended ∧ s.supervisor = .watching then
      some { s with life := .reaped, supervisor := .draining }
    else none
  | .reap =>
    if s.life = .ended then
      match s.supervisor with
      | .killing false => some { s with life := .reaped, supervisor := .returned none }
      | .killing true =>
        some { s with life := .reaped, supervisor := .concluding s.timeoutDelivery }
      | _ => none
    else none
  | .collect found =>
    if s.supervisor = .draining then some { s with supervisor := .concluding found.delivery }
    else none
  | .conclude =>
    match s.supervisor with
    | .concluding delivery =>
      match s.finish .terminated with
      | (true, s) => some { s with supervisor := .delivering delivery }
      | (false, s) => some { s with supervisor := .returned none }
    | _ => none
  | .deliver =>
    match s.supervisor with
    | .delivering delivery => some { s with supervisor := .returned (some delivery) }
    | _ => none

/-- What a caller who waits for the outcome gets; none while there is nothing yet.  A supervisor
that returned without a delivery was cancelled. -/
def outcome? (s : Session) : Option (Except RunError Outcome) :=
  match s.supervisor with
  | .returned none => some (.ok .cancelled)
  | .returned (some delivery) => some delivery.outcome
  | _ => none

end Session

end SourceFormat.Subprocess
