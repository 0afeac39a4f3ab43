import Mathlib
import SourceFormat.Proofs.Formatting.OptionFileLifetime
import SourceFormat.Proofs.Formatting.ServiceFiles
import SourceFormat.Proofs.Subprocess.ShownResults

/-!
# Tasks and services see what is shown of their processes

A task makes its outcome of what is shown of its session: of the exit code, and of the standard
output of a formatter that has succeeded.  So whatever else the formatter has written, the task and
the service take the same steps, with the same files and the same outcomes.

* `Task.act_shown`, `Service.step_shown`: one step, as to what is shown.
* `Task.FileRun.Alike`, `Service.FileRun.Alike`: runs that differ only in what is not shown of their
  processes.
* `Task.FileRun.Alike.shown_state`, `Service.FileRun.Alike.shown_state`: at every time of two such
  runs the same is shown, and the files are the same.
-/

namespace SourceFormat.Formatting

open Subprocess (Remains RunError Session)

/-- The outcome is made of what is shown. -/
lemma Outcome.ofRun_shown (o : Except RunError Subprocess.Outcome) :
    Outcome.ofRun (o.map Subprocess.Outcome.shown) = Outcome.ofRun o := by
  cases o with
  | error e => rfl
  | ok outcome =>
    cases outcome with
    | cancelled => rfl
    | exited r =>
      have hshown : r.shown.success = r.success := rfl
      simp only [Except.map, Subprocess.Outcome.shown, ofRun, hshown]
      split_ifs with hsuccess
      · simp [Subprocess.Result.shown, hsuccess]
      · rfl

namespace Task

variable {files : FileTree}

/-- What is shown of a task: everything but what its session keeps to itself. -/
def shown (t : Task) : Task := { t with session := t.session.shown }

@[simp] lemma state_shown (t : Task) : t.shown.state = t.state := rfl

@[simp] lemma stage_shown (t : Task) : t.shown.stage = t.stage := rfl

@[simp] lemma outcome?_shown (t : Task) : t.shown.outcome? = t.outcome? := rfl

@[simp] lemma session_shown (t : Task) : t.shown.session = t.session.shown := rfl

/-- A run begins as it is shown to begin. -/
lemma begin_shown (t : Task) : t.shown.begin = (t.begin.1, t.begin.2.shown) := by
  unfold begin shown
  split_ifs <;> rfl

/-- A cancellation answers what it is shown to answer, and does what it is shown to do. -/
lemma cancel_shown (t : Task) : t.shown.cancel = (t.cancel.1, t.cancel.2.shown) := by
  simp only [cancel, shown, Session.cancel_shown]

/-- The session of a task steps as it is shown to step. -/
lemma sessionStep_shown (t : Task) (e : Session.Event) :
    t.shown.sessionStep e.shown = (t.sessionStep e).map Task.shown := by
  simp [sessionStep, shown, Session.step_shown, Function.comp_def]

/-- The run of a task gets on as it is shown to, and with the same files. -/
lemma advance_shown (env : Surroundings) (t : Task) (files : FileTree) :
    t.shown.advance env files =
      (t.advance env files).map fun (t, files) => (t.shown, files) := by
  have hsuperseded : t.shown.superseded = t.superseded := rfl
  unfold advance
  cases hs : t.stage with
  | unrun | returned => simp only [stage_shown, hs]; rfl
  | resolving =>
    have hresolve : Config.resolve files env.temporary t.shown.request.projectRoot t.shown.settings
        t.shown.style =
      Config.resolve files env.temporary t.request.projectRoot t.settings t.style := rfl
    simp only [stage_shown, hs, hresolve]
    split <;> rfl
  | checking config | guarding config =>
    simp only [stage_shown, hs, hsuperseded]
    split_ifs <;> rfl
  | entering | closing | finishing | unwinding => simp only [stage_shown, hs]; rfl
  | starting config =>
    have hprocess : t.shown.request.process t.shown.settings config.location.path =
      t.request.process t.settings config.location.path := rfl
    simp only [stage_shown, hs, hprocess, session_shown, Session.start_shown]
    cases t.session.start (t.request.process t.settings config.location.path)
        (env.launch (t.request.process t.settings config.location.path)) with
    | mk answer session => cases answer <;> rfl
  | recalling config =>
    simp only [stage_shown, hs, cancel_shown]
    rfl
  | awaiting config =>
    simp only [stage_shown, hs, session_shown, Session.outcome?_shown]
    simp [Function.comp_def, Outcome.ofRun_shown, shown]

/-- What is shown of an act. -/
def Act.shown : Act → Act
  | session e => .session e.shown
  | a => a

/-- What an act does to what is shown of a task, and to the files, depends on what is shown of the
act. -/
theorem act_shown (t : Task) (files : FileTree) (a : Act) :
    t.shown.act files a.shown = (t.act files a).map fun (t, files) => (t.shown, files) := by
  cases a with
  | run => simp [act, Act.shown, begin_shown]
  | advance env => exact advance_shown env t files
  | markSuperseded => rfl
  | cancel => simp [act, Act.shown, cancel_shown]
  | session e => simp [act, Act.shown, sessionStep_shown, Function.comp_def]

/-- The acts are the same, or exchanges are collected of which the same is shown. -/
inductive Act.Alike : Act → Act → Prop where
  | same (a : Act) : Alike a a
  | collects {r r' : Remains} (h : r.Alike r') :
      Alike (.session (.collect r.collected)) (.session (.collect r'.collected))

/-- Of acts that are alike the same is shown. -/
lemma Act.Alike.shown_eq {a a' : Act} (h : a.Alike a') : a'.shown = a.shown := by
  cases h with
  | same => rfl
  | collects h => simp only [Act.shown, Session.Event.shown, h.shown_collected]

section FileRun

variable {request : Request} {settings : Settings} {style : Style}

/-- The runs differ only in what formatters have written to standard error, and formatters that have
failed to either output. -/
abbrev FileRun.Alike (x y : FileRun request settings style files) : Prop :=
  Execution.Alike (OnFiles.Turn.Alike Act.Alike) x y

/-- A turn of a task with its files is a turn of what is shown of it. -/
lemma next_shown (s : OnFiles Task) (a : OnFiles.Turn Act) :
    OnFiles.next act (s.map shown) (a.map Act.shown) =
      (OnFiles.next act s a).map (OnFiles.map shown) :=
  OnFiles.next_map act_shown s a

/-- At every time of two such runs the same is shown of the task, and the files are the same. -/
theorem FileRun.Alike.shown_state {x y : FileRun request settings style files} (h : x.Alike y)
    {n : ℕ} (hn : n ≤ x.length) : (y.state n).map shown = (x.state n).map shown :=
  Execution.Alike.view_state_eq next_shown
    (fun _ _ ha => ha.map_eq fun _ _ hact => hact.shown_eq) h hn

/-- Whatever else the formatters may have written, there is a run in which they have. -/
theorem FileRun.exists_alike (x : FileRun request settings style files)
    (labels : ℕ → OnFiles.Turn Act)
    (hlabels : ∀ i, i < x.length → (x.label i).Alike Act.Alike (labels i)) :
    ∃ y : FileRun request settings style files, x.Alike y ∧
      ∀ i, i < x.length → y.label i = labels i :=
  Execution.exists_alike next_shown
    (fun _ _ ha => ha.map_eq fun _ _ hact => hact.shown_eq) x labels hlabels

end FileRun

end Task

namespace Service

/-- What is shown of a service: everything but what the sessions of its tasks keep to themselves. -/
def shown (s : Service) : Service := { s with tasks := s.tasks.map Task.shown }

/-- What is shown of a step. -/
def Action.shown : Action → Action
  | session i e => .session i e.shown
  | a => a

variable {s : Service}

/-- The tasks that are shown are what is shown of the tasks. -/
lemma getElem?_tasks_shown (s : Service) (i : ℕ) :
    s.shown.tasks[i]? = (s.tasks[i]?).map Task.shown := by
  simp [shown]

/-- Changing what is shown of a task is to change the task. -/
lemma setTask_shown (s : Service) (i : ℕ) (t : Task) :
    { s.shown with tasks := s.shown.tasks.set i t.shown } =
      shown { s with tasks := s.tasks.set i t } := by
  simp [shown, List.map_set]

/-- What does the same to what is shown of a task does the same to what is shown of the service. -/
lemma onTask_shown (s : Service) (i : ℕ) {f : Task → Task}
    (hf : ∀ t : Task, f t.shown = (f t).shown) : s.shown.onTask i f = (s.onTask i f).shown := by
  unfold onTask
  rw [getElem?_tasks_shown]
  cases s.tasks[i]? with
  | none => rfl
  | some t =>
    simp only [Option.map_some, hf]
    exact setTask_shown s i (f t)

/-- A task is marked as it is shown to be. -/
lemma markSuperseded_shown (s : Service) (i : ℕ) :
    s.shown.onTask i Task.markSuperseded = (s.onTask i Task.markSuperseded).shown :=
  onTask_shown s i fun _ => rfl

/-- A task is cancelled as it is shown to be. -/
lemma cancelTask_shown (s : Service) (i : ℕ) :
    s.shown.onTask i (·.cancel.2) = (s.onTask i (·.cancel.2)).shown :=
  onTask_shown s i fun t => by rw [Task.cancel_shown]

/-- The table is shown as it is. -/
lemma entry?_shown (s : Service) (key : Path.Key) : s.shown.entry? key = s.entry? key := rfl

/-- A formatting call steps as it is shown to step. -/
lemma stepFormat_shown (env : Task.Surroundings) (s : Service) (files : FileTree) (c : ℕ)
    (call : FormatCall) : s.shown.stepFormat env files c call =
      (s.stepFormat env files c call).map fun (s, files) => (s.shown, files) := by
  unfold stepFormat
  cases hs : call.stage with
  | arrived =>
    simp only [shown, moveFormat, List.length_map, List.map_append, Option.map_some]
    rfl
  | numbered => rfl
  | marking stale =>
    simp only [markSuperseded_shown]
    rfl
  | recalling stale =>
    simp only [cancelTask_shown]
    rfl
  | running =>
    simp only [getElem?_tasks_shown]
    cases s.tasks[call.task]? with
    | none => rfl
    | some t =>
      simp only [Option.map_some, Task.outcome?_shown, Task.stage_shown, Task.begin_shown,
        Task.advance_shown]
      cases t.outcome? with
      | some outcome => rfl
      | none =>
        simp only
        split_ifs
        · cases t.begin with
          | mk first t' =>
            cases first with
            | false => rfl
            | true => simp [setTask_shown]
        · simp [setTask_shown, Function.comp_def]
  | leaving outcome =>
    simp only [entry?_shown]
    cases s.entry? call.request.fileName.key with
    | none => rfl
    | some entry =>
      simp only
      split_ifs <;> rfl
  | returned outcome => rfl

/-- A cancellation steps as it is shown to step. -/
lemma stepCancel_shown (s : Service) (c : ℕ) (call : CancelCall) :
    s.shown.stepCancel c call = (s.stepCancel c call).map shown := by
  unfold stepCancel
  cases hs : call.stage with
  | arrived =>
    simp only [entry?_shown]
    cases s.entry? call.key <;> rfl
  | marking task =>
    simp only [markSuperseded_shown]
    rfl
  | recalling task =>
    simp only [getElem?_tasks_shown]
    cases s.tasks[task]? with
    | none => rfl
    | some t =>
      simp only [Option.map_some, Task.cancel_shown, setTask_shown]
      rfl
  | returned ended => rfl

/-- What a step does to what is shown of a service, and to the files, depends on what is shown of
the step. -/
theorem step_shown (env : Task.Surroundings) (s : Service) (files : FileTree) (a : Action) :
    s.shown.step env files a.shown =
      (s.step env files a).map fun (s, files) => (s.shown, files) := by
  cases a with
  | format r => rfl
  | cancel p => rfl
  | stepFormat c =>
    have hformats : s.shown.formats = s.formats := rfl
    simp only [step, Action.shown, hformats]
    cases s.formats[c]? with
    | none => rfl
    | some call => exact stepFormat_shown env s files c call
  | stepCancel c =>
    have hcancels : s.shown.cancels = s.cancels := rfl
    simp only [step, Action.shown, hcancels]
    cases s.cancels[c]? with
    | none => rfl
    | some call => simp [stepCancel_shown, Function.comp_def]
  | session i e =>
    simp only [step, Action.shown, getElem?_tasks_shown]
    cases s.tasks[i]? with
    | none => rfl
    | some t => simp [Task.sessionStep_shown, setTask_shown, Function.comp_def]

/-- The steps are the same, or exchanges are collected of which the same is shown. -/
inductive Action.Alike : Action → Action → Prop where
  | same (a : Action) : Alike a a
  | collects (i : ℕ) {r r' : Remains} (h : r.Alike r') :
      Alike (.session i (.collect r.collected)) (.session i (.collect r'.collected))

/-- Of actions that are alike the same is shown. -/
lemma Action.Alike.shown_eq {a a' : Action} (h : a.Alike a') : a'.shown = a.shown := by
  cases h with
  | same => rfl
  | collects i h => simp only [Action.shown, Session.Event.shown, h.shown_collected]

section FileRun

variable {settings : Settings} {style : Style} {files : FileTree}

/-- The same surroundings, and steps that are alike. -/
def StepAlike (a a' : Task.Surroundings × Action) : Prop := a'.1 = a.1 ∧ a.2.Alike a'.2

/-- The runs differ only in what formatters have written to standard error, and formatters that have
failed to either output. -/
abbrev FileRun.Alike (x y : FileRun settings style files) : Prop :=
  Execution.Alike (OnFiles.Turn.Alike StepAlike) x y

/-- What is shown of a step in its surroundings. -/
def stepShown (a : Task.Surroundings × Action) : Task.Surroundings × Action := (a.1, a.2.shown)

/-- Of steps that are alike the same is shown. -/
lemma StepAlike.shown_eq {a a' : Task.Surroundings × Action} (h : StepAlike a a') :
    stepShown a' = stepShown a := by
  rw [stepShown, stepShown, h.1, h.2.shown_eq]

/-- A turn of a service with its files is a turn of what is shown of it. -/
lemma next_shown (s : OnFiles Service) (a : OnFiles.Turn (Task.Surroundings × Action)) :
    OnFiles.next act (s.map shown) (a.map stepShown) =
      (OnFiles.next act s a).map (OnFiles.map shown) :=
  OnFiles.next_map (fun s files a => step_shown a.1 s files a.2) s a

/-- At every time of two such runs the same is shown of the service, and the files are the same. -/
theorem FileRun.Alike.shown_state {x y : FileRun settings style files} (h : x.Alike y) {n : ℕ}
    (hn : n ≤ x.length) : (y.state n).map shown = (x.state n).map shown :=
  Execution.Alike.view_state_eq next_shown
    (fun _ _ ha => ha.map_eq fun _ _ hstep => hstep.shown_eq) h hn

/-- Whatever else the formatters may have written, there is a run in which they have. -/
theorem FileRun.exists_alike (x : FileRun settings style files)
    (labels : ℕ → OnFiles.Turn (Task.Surroundings × Action))
    (hlabels : ∀ i, i < x.length → (x.label i).Alike StepAlike (labels i)) :
    ∃ y : FileRun settings style files, x.Alike y ∧ ∀ i, i < x.length → y.label i = labels i :=
  Execution.exists_alike next_shown
    (fun _ _ ha => ha.map_eq fun _ _ hstep => hstep.shown_eq) x labels hlabels

/-- The first call to the service has this request, and has returned in the end with this answer and
these files. -/
structure FileRun.Answers (x : FileRun settings style files) (request : Request)
    (answer : FileTree × Outcome) : Prop where
  returned : ∃ call, (x.state x.length).machine.formats[0]? = some call ∧
    call.request = request ∧ call.stage = .returned answer.2
  files : (x.state x.length).files = answer.1

end FileRun

end Service

end SourceFormat.Formatting
