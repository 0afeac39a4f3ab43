import Mathlib
import SourceFormat.Subprocess.Collection

/-!
# What can be told of a process from outside

A session hands on whatever was captured of its process.  Who only asks whether the process has
succeeded, and for its output if it has, sees less: the exit code, and the standard output of a
process that has succeeded.  This is what is *shown* of a result.

* `Remains.Alike`, `Remains.Alike.shown_collected`: exchanges whose processes differ in what they
  wrote to their standard error, or that failed and wrote anything, are shown alike.
* `Session.step_shown`, `Session.start_shown`, `Session.cancel_shown`: what a session does to what
  is shown of it depends on nothing else.
-/

namespace SourceFormat.Subprocess

/-! ## Results and deliveries -/

/-- What is shown of a result: the exit code, and the standard output if it is 0. -/
def Result.shown (r : Result) : Result where
  exitCode := r.exitCode
  stdout := if r.success then r.stdout else ""
  stderr := ""

/-- What is shown of an outcome. -/
def Outcome.shown : Outcome → Outcome
  | exited r => .exited r.shown
  | cancelled => .cancelled

/-- What is shown of the end of an exchange. -/
def Collected.shown : Collected → Collected
  | exited r => .exited r.shown
  | unknown source => .unknown source
  | unwritten source => .unwritten source
  | unread source => .unread source

/-- What is shown of a delivery. -/
def Delivery.shown : Delivery → Delivery
  | exited r => .exited r.shown
  | failed e => .failed e

@[simp] lemma Collected.delivery_shown (c : Collected) : c.shown.delivery = c.delivery.shown := by
  cases c <;> rfl

@[simp] lemma Delivery.outcome_shown (d : Delivery) :
    d.shown.outcome = d.outcome.map Outcome.shown := by
  cases d <;> rfl

/-! ## Exchanges that are shown alike -/

/-- The exchanges differ in what the process wrote to its standard error alone; or the process did
not succeed, and they differ in what it wrote. -/
inductive Remains.Alike : Remains → Remains → Prop where
  | diagnostics (status : Except SystemError Ending) (input : Except SystemError Unit)
      (stdout : Except SystemError Bytes) (err err' : Bytes) :
      Alike ⟨status, input, stdout, .ok err⟩ ⟨status, input, stdout, .ok err'⟩
  | outputs {ending : Ending} (hfailed : ending.exitCode ≠ 0) (input : Except SystemError Unit)
      (out out' err err' : Bytes) :
      Alike ⟨.ok ending, input, .ok out, .ok err⟩ ⟨.ok ending, input, .ok out', .ok err'⟩

/-- Such exchanges are shown alike. -/
theorem Remains.Alike.shown_collected {r r' : Remains} (h : r.Alike r') :
    r'.collected.shown = r.collected.shown := by
  cases h with
  | diagnostics status input stdout err err' =>
    unfold collected
    cases status with
    | error source => rfl
    | ok ending =>
      simp only [inputFailure?]
      split
      · rfl
      · cases stdout <;> rfl
  | outputs hfailed input out out' err err' =>
    unfold collected
    simp only [inputFailure?]
    split
    · rfl
    · simp [Collected.shown, Result.shown, Result.success, hfailed]

/-! ## Sessions -/

/-- What is shown of a supervisor. -/
def Supervisor.shown : Supervisor → Supervisor
  | absent => .absent
  | watching => .watching
  | killing expired => .killing expired
  | draining => .draining
  | concluding delivery => .concluding delivery.shown
  | delivering delivery => .delivering delivery.shown
  | returned delivered => .returned (delivered.map Delivery.shown)

/-- A supervisor that is shown to be absent is. -/
lemma Supervisor.shown_eq_absent_iff (s : Supervisor) : s.shown = .absent ↔ s = .absent := by
  cases s <;> simp [shown]

namespace Session

/-- What is shown of a session. -/
def shown (s : Session) : Session := { s with supervisor := s.supervisor.shown }

/-- What is shown of a step. -/
def Event.shown : Event → Event
  | collect found => .collect found.shown
  | e => e

variable {s : Session}

/-- A cancellation answers as it is shown to, and does what it is shown to do. -/
lemma cancel_shown (s : Session) : s.shown.cancel = (s.cancel.1, s.cancel.2.shown) := by
  unfold cancel finish shown
  split_ifs <;> rfl

/-- A start answers as it is shown to, and does what it is shown to do. -/
lemma start_shown (s : Session) (r : Request) (launch : Except SystemError Unit) :
    s.shown.start r launch = ((s.start r launch).1, (s.start r launch).2.shown) := by
  unfold start shown
  split
  · rfl
  · split_ifs
    · rfl
    · split <;> rfl

/-- A deadline passes as it is shown to pass. -/
lemma step_deadlinePasses_shown (s : Session) :
    s.shown.step .deadlinePasses = (s.step .deadlinePasses).map Session.shown := by
  have habsent : s.shown.supervisor ≠ .absent ↔ s.supervisor ≠ .absent :=
    not_congr s.supervisor.shown_eq_absent_iff
  have hlimit : s.shown.limit = s.limit := rfl
  simp only [step, hlimit, Bool.and_eq_true, decide_eq_true_eq, habsent]
  split_ifs <;> rfl

/-- What a step does to what is shown of a session depends on what is shown of the step. -/
theorem step_shown (s : Session) (e : Event) :
    s.shown.step e.shown = (s.step e).map Session.shown := by
  obtain ⟨state, signalling, permit, request, life, expired, supervisor⟩ := s
  cases e with
  | signal => cases signalling <;> rfl
  | processEnds => cases life <;> rfl
  | deadlinePasses => exact step_deadlinePasses_shown _
  | noticeCancel => cases permit <;> cases supervisor <;> rfl
  | noticeDeadline => cases expired <;> cases supervisor <;> rfl
  | noticeEnd => cases life <;> cases supervisor <;> rfl
  | reap =>
    cases supervisor with
    | killing expired => cases life <;> cases expired <;> rfl
    | _ => cases life <;> rfl
  | collect found =>
    cases supervisor with
    | draining => simp [step, shown, Event.shown, Supervisor.shown]
    | _ => rfl
  | conclude => cases supervisor <;> cases state <;> rfl
  | deliver => cases supervisor <;> rfl

/-- What a caller gets who is shown a session is what is shown of what they would get. -/
lemma outcome?_shown (s : Session) :
    s.shown.outcome? = s.outcome?.map (Except.map Outcome.shown) := by
  obtain ⟨state, signalling, permit, request, life, expired, supervisor⟩ := s
  cases supervisor with
  | returned delivered =>
    cases delivered with
    | none => rfl
    | some delivery => simp [outcome?, shown, Supervisor.shown]
  | _ => rfl

end Session

end SourceFormat.Subprocess
