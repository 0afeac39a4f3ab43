import SourceFormat.Subprocess.Session

/-!
# A slot for one run at a time

Everything that is run through a slot takes the place of what was run before it.  A call draws a
number, then enters the slot's critical section: it takes out the current run and cancels it, starts
its own and puts it in.  Behind its outcome it takes itself out again, unless somebody else has done
so already.  A request that cannot be launched has still ended the run before it.

Drawing the number and entering are two steps, and other calls may come between them.
-/

namespace SourceFormat.Subprocess

namespace Slot

/-- Where a call is. -/
inductive Stage where
  | arrived
  | numbered (id : Nat)
  /-- Its process runs in this session. -/
  | waiting (id session : Nat)
  /-- It has its outcome and is about to take itself out. -/
  | leaving (id : Nat) (outcome : Except RunError Outcome)
  | returned (outcome : Except RunError Outcome)

/-- A call to run a request. -/
structure Call where
  request : Request
  stage : Stage := .arrived

/-- The outcome of a call that has returned. -/
def Call.outcome? (c : Call) : Option (Except RunError Outcome) :=
  match c.stage with
  | .returned outcome => some outcome
  | _ => none

end Slot

/-- A slot, with every call made through it and every session started by one. -/
structure Slot where
  nextId : Nat := 0
  /-- The number and the session of the current run. -/
  current : Option (Nat × Nat) := none
  sessions : List Session := []
  calls : List Slot.Call := []

namespace Slot

/-- Whether there is a current run. -/
def isBusy (s : Slot) : Bool := s.current.isSome

/-- Take out the current run and cancel it: true if that is what ended it. -/
def cancel (s : Slot) : Bool × Slot :=
  match s.current with
  | none => (false, s)
  | some (_, i) =>
    match s.sessions[i]? with
    | none => (false, { s with current := none })
    | some session =>
      let (ended, session) := session.cancel
      (ended, { s with current := none, sessions := s.sessions.set i session })

/-- Make a call. -/
def call (s : Slot) (r : Request) : Slot :=
  { s with calls := s.calls ++ [{ request := r }] }

/-- A step of a call, of somebody who cancels, or of a session. -/
inductive Action where
  | call (r : Request)
  /-- Call `c` draws its number. -/
  | number (c : Nat)
  /-- Call `c` goes through the critical section; `launch` is the system's answer. -/
  | enter (c : Nat) (launch : Except SystemError Unit)
  /-- Call `c` finds its outcome. -/
  | wake (c : Nat)
  /-- Call `c` takes itself out and returns. -/
  | leave (c : Nat)
  | cancel
  | session (i : Nat) (e : Session.Event)

/-- Move a call to another stage. -/
def moveTo (s : Slot) (c : Nat) (call : Call) (stage : Stage) : Slot :=
  { s with calls := s.calls.set c { call with stage } }

/-- The critical section of a call. -/
def enterWith (s : Slot) (c : Nat) (call : Call) (id : Nat) (launch : Except SystemError Unit) :
    Slot :=
  let s := s.cancel.2
  let i := s.sessions.length
  match Session.start {} call.request launch with
  | (.error e, session) =>
    { s with sessions := s.sessions ++ [session] }.moveTo c call (.returned (.error e))
  | (.ok (), session) =>
    { s with current := some (id, i), sessions := s.sessions ++ [session] }.moveTo c call
      (.waiting id i)

/-- One step; none if it is not possible now. -/
def step (s : Slot) : Action → Option Slot
  | .call r => some (s.call r)
  | .number c =>
    match s.calls[c]? with
    | some call =>
      match call.stage with
      | .arrived => some ({ s with nextId := s.nextId + 1 }.moveTo c call (.numbered s.nextId))
      | _ => none
    | none => none
  | .enter c launch =>
    match s.calls[c]? with
    | some call =>
      match call.stage with
      | .numbered id => some (s.enterWith c call id launch)
      | _ => none
    | none => none
  | .wake c =>
    match s.calls[c]? with
    | some call =>
      match call.stage with
      | .waiting id i =>
        (s.sessions[i]?.bind (·.outcome?)).map fun outcome =>
          s.moveTo c call (.leaving id outcome)
      | _ => none
    | none => none
  | .leave c =>
    match s.calls[c]? with
    | some call =>
      match call.stage with
      | .leaving id outcome =>
        let current := match s.current with
          | some (owner, i) => if owner = id then none else some (owner, i)
          | none => none
        some ({ s with current }.moveTo c call (.returned outcome))
      | _ => none
    | none => none
  | .cancel => some s.cancel.2
  | .session i e =>
    match s.sessions[i]? with
    | some session =>
      (session.step e).map fun session => { s with sessions := s.sessions.set i session }
    | none => none

/-- The step that a call takes next of its own accord, if it is not waiting. -/
def nextAction? (launch : Request → Except SystemError Unit) (c : Nat) (call : Call) :
    Option Action :=
  match call.stage with
  | .arrived => some (.number c)
  | .numbered _ => some (.enter c (launch call.request))
  | .waiting _ _ => some (.wake c)
  | .leaving _ _ => some (.leave c)
  | .returned _ => none

end Slot

end SourceFormat.Subprocess
