import Mathlib
import SourceFormat.Proofs.Cli.SourceKept
import SourceFormat.Proofs.Formatting.ShownRuns

/-!
# What a formatter writes to standard error stays hidden

Whoever has a document formatted sees the outcome, and on the command line what is printed and what
is written back.  None of this depends on what the formatter has written to its standard error, be
it text or not; and if the formatter fails, none of it depends on its standard output either.

This is a statement about two runs.  They are runs of a task, of a service with any number of
documents, or of a command, and in each of them the same happens in the same order: the steps of all
calls and sessions, the answers of the system, and what everybody else does to files.  Only what is
captured of the formatters differs.  `diagnostics_hidden` says that nothing else differs then, at
any time; and that the formatters' writing cannot hold up a run either: there is a run for whatever
they may have written.
-/

namespace SourceFormat.Cli

open Formatting (Outcome Service Task)
open Subprocess (Remains)

variable {t : FileTree} {c : FormatCommand}

/-- Runs that are alike give the same answer. -/
lemma answer_eq_of_alike {settings : Settings} {style : Style}
    {x y : Service.FileRun settings style t} (h : x.Alike y) {request : Formatting.Request}
    {answer answer' : FileTree × Outcome} (hx : x.Answers request answer)
    (hy : y.Answers request answer') : answer' = answer := by
  have hshown := h.shown_state le_rfl
  obtain ⟨call, hcall, -, hs⟩ := hx.returned
  obtain ⟨call', hcall', -, hs'⟩ := hy.returned
  rw [h.length] at hcall'
  have hformats : (y.state x.length).machine.formats = (x.state x.length).machine.formats :=
    congrArg (·.machine.formats) hshown
  rw [hformats, hcall] at hcall'
  obtain rfl := Option.some.inj hcall'
  have houtcome : answer'.2 = answer.2 := Service.FormatStage.returned.inj (hs'.symm.trans hs)
  have hfiles : answer'.1 = answer.1 := by
    rw [← hy.files, ← hx.files, h.length]
    exact congrArg (·.files) hshown
  exact Prod.ext hfiles houtcome

/-- **What a formatter writes to standard error stays hidden, and what a failing one writes at
all.**  Let two runs differ only in that.

* Two such runs of a task have, at every time, the same state, the same outcome if there is one, and
  the same files.
* Two such runs of a service have, at every time, the same calls with the same outcomes, the same
  answers to cancellations, the same states and outcomes of all tasks, and the same files.
* A formatting command that is answered by one such run of a service ends with the same status,
  prints the same, and leaves the same files as with the other.

And whatever the formatters of a run may have written instead, there is a run in which they have.
-/
theorem diagnostics_hidden :
    (∀ (request : Formatting.Request) (settings : Settings) (style : Style) (files : FileTree)
      (x : Task.FileRun request settings style files),
      (∀ y, x.Alike y → ∀ n, n ≤ x.length →
        (y.state n).machine.state = (x.state n).machine.state ∧
        (y.state n).machine.outcome? = (x.state n).machine.outcome? ∧
        (y.state n).files = (x.state n).files) ∧
      (∀ labels : ℕ → OnFiles.Turn Task.Act,
        (∀ i, i < x.length → (x.label i).Alike Task.Act.Alike (labels i)) →
          ∃ y, x.Alike y ∧ ∀ i, i < x.length → y.label i = labels i)) ∧
    (∀ (settings : Settings) (style : Style) (files : FileTree)
      (x : Service.FileRun settings style files),
      (∀ y, x.Alike y → ∀ n, n ≤ x.length →
        (y.state n).machine.formats = (x.state n).machine.formats ∧
        (y.state n).machine.cancels = (x.state n).machine.cancels ∧
        (y.state n).machine.tasks.map (fun task => (task.state, task.outcome?)) =
          (x.state n).machine.tasks.map (fun task => (task.state, task.outcome?)) ∧
        (y.state n).files = (x.state n).files) ∧
      (∀ labels : ℕ → OnFiles.Turn (Task.Surroundings × Service.Action),
        (∀ i, i < x.length → (x.label i).Alike Service.StepAlike (labels i)) →
          ∃ y, x.Alike y ∧ ∀ i, i < x.length → y.label i = labels i)) ∧
    (∀ (t : FileTree) (c : FormatCommand) (srv srv' : Services) (disk : Disk),
      (∀ p, prepare t c = .ok p → ∃ x y : Service.FileRun p.settings p.style t, x.Alike y ∧
        x.Answers p.request (srv.format t p.settings p.style p.request) ∧
        y.Answers p.request (srv'.format t p.settings p.style p.request)) →
      (Command.format c).run srv' disk t = (Command.format c).run srv disk t) := by
  refine ⟨fun request settings style files x => ⟨fun y h n hn => ?task, x.exists_alike⟩,
    fun settings style files x => ⟨fun y h n hn => ?service, x.exists_alike⟩,
    fun t c srv srv' disk h => ?command⟩
  case task =>
    have hshown := h.shown_state hn
    exact ⟨congrArg (·.machine.state) hshown, congrArg (·.machine.outcome?) hshown,
      congrArg (·.files) hshown⟩
  case service =>
    have hshown := h.shown_state hn
    have htasks := congrArg (·.machine.tasks.map fun task => (task.state, task.outcome?)) hshown
    refine ⟨congrArg (·.machine.formats) hshown, congrArg (·.machine.cancels) hshown, ?_,
      congrArg (·.files) hshown⟩
    simpa [OnFiles.map, Service.shown, Function.comp_def] using htasks
  case command =>
    cases hp : prepare t c with
    | error f => simp [Command.run, formatFile, hp]
    | ok p =>
      obtain ⟨x, y, hxy, hx, hy⟩ := h p hp
      simp only [Command.run, formatFile, hp, answer_eq_of_alike hxy hx hy]

/-! ### A formatter that complains -/

/-- The formatter succeeds, and complains in bytes that are no text. -/
def complaint : Remains := { remainsOf (.exited 0) "int x;\n" with stderr := .ok [0xFF] }

/-- The formatter fails, and has written something else. -/
def otherFailure : Remains where
  status := .ok (.exited 1)
  input := .ok ()
  stdout := .ok [0xC3]
  stderr := .ok [0xFF]

/-- A process that succeeds may complain as it likes. -/
lemma alike_complaint : (remainsOf (.exited 0) "int x;\n").Alike complaint := .diagnostics ..

/-- A process that fails may write as it likes. -/
lemma alike_otherFailure : (remainsOf (.exited 1) "int x;\n").Alike otherFailure :=
  .outputs (by decide) ..

/-- What a service does is alike to itself. -/
lemma alike_actions (actions : List Service.Action) :
    List.Forall₂ Service.Action.Alike actions actions :=
  List.forall₂_same.mpr fun a _ => .same a

/-- What a task does is alike to itself. -/
lemma alike_acts (acts : List Task.Act) : List.Forall₂ Task.Act.Alike acts acts :=
  List.forall₂_same.mpr fun a _ => .same a

/-- Turns of a service that differ only in what a process has left behind are alike if that is. -/
lemma alike_turnsFor {r r' : Remains} (h : r.Alike r') :
    List.Forall₂ (OnFiles.Turn.Alike Service.StepAlike) (turnsFor r) (turnsFor r') := by
  have hactions : List.Forall₂ Service.Action.Alike (actionsFor r) (actionsFor r') := by
    unfold actionsFor
    refine List.rel_append (List.rel_append (alike_actions _) ?_) (alike_actions _)
    exact .cons (.same _) (.cons (.same _) (.cons (.collects 0 h) (alike_actions _)))
  rw [turnsFor, turnsFor, List.forall₂_map_left_iff, List.forall₂_map_right_iff]
  exact hactions.imp fun _ _ ha => .act ⟨rfl, ha⟩

/-- The formatter succeeds and complains. -/
def complainingRun : Service.FileRun {} {} withOptions :=
  Execution.ofLabels (OnFiles.next Service.act) _ (turnsFor complaint) (by decide +kernel)

/-- The formatter fails otherwise. -/
def otherBadRun : Service.FileRun {} {} withOptions :=
  Execution.ofLabels (OnFiles.next Service.act) _ (turnsFor otherFailure) (by decide +kernel)

/-- What is done to a task whose formatter leaves this behind. -/
def taskActsFor (remains : Remains) : List Task.Act :=
  [Task.Act.run] ++ List.replicate 5 (Task.Act.advance Task.launchesAll) ++
    [Task.Act.session .processEnds, .session .noticeEnd, .session (.collect remains.collected),
      .session .conclude, .session .deliver] ++ List.replicate 3 (.advance Task.launchesAll)

/-- Turns of a task that differ only in what a process has left behind are alike if that is. -/
lemma alike_taskActsFor {r r' : Remains} (h : r.Alike r') :
    List.Forall₂ (OnFiles.Turn.Alike Task.Act.Alike) ((taskActsFor r).map .act)
      ((taskActsFor r').map .act) := by
  have hacts : List.Forall₂ Task.Act.Alike (taskActsFor r) (taskActsFor r') := by
    unfold taskActsFor
    refine List.rel_append (List.rel_append (alike_acts _) ?_) (alike_acts _)
    exact .cons (.same _) (.cons (.same _) (.cons (.collects h) (alike_acts _)))
  rw [List.forall₂_map_left_iff, List.forall₂_map_right_iff]
  exact hacts.imp fun _ _ ha => .act ha

/-- A task whose formatter fails. -/
def badTask : Task.FileRun inPlaceRequest {} {} withOptions :=
  Execution.ofLabels (OnFiles.next Task.act) _
    ((taskActsFor (remainsOf (.exited 1) "int x;\n")).map .act) (by decide +kernel)

/-- The same task when its formatter fails otherwise. -/
def otherBadTask : Task.FileRun inPlaceRequest {} {} withOptions :=
  Execution.ofLabels (OnFiles.next Task.act) _ ((taskActsFor otherFailure).map .act)
    (by decide +kernel)

/-- A service that answers as this run does. -/
def servicesOf (x : Service.FileRun {} {} withOptions) : Services where
  verify t _ _ := (t, .cancelled)
  validate t _ _ _ := (t, .ok .cancelled)
  format _ _ _ _ := ((x.state x.length).files,
    (((x.state x.length).machine.formats[0]?).bind (·.outcome?)).getD .cancelled)

/-- Whether the first call was for this document, and what it has returned. -/
def firstAnswer? (x : Service.FileRun {} {} withOptions) : Option (Formatting.Request × Outcome) :=
  (x.state x.length).machine.formats[0]?.bind fun call =>
    call.outcome?.map fun outcome => (call.request, outcome)

/-- A service that replays a run gives the answer of that run. -/
lemma answers_servicesOf {x : Service.FileRun {} {} withOptions} {o : Outcome}
    (h : firstAnswer? x = some (inPlaceRequest, o)) (settings : Settings) (style : Style) :
    x.Answers inPlaceRequest ((servicesOf x).format withOptions settings style inPlaceRequest) where
  returned := by
    obtain ⟨call, hcall, hanswer⟩ := Option.bind_eq_some_iff.mp h
    obtain ⟨o', ho, hpair⟩ := Option.map_eq_some_iff.mp hanswer
    obtain ⟨hrequest, rfl⟩ := Prod.ext_iff.mp hpair
    refine ⟨call, hcall, hrequest, ?_⟩
    simp only [servicesOf, hcall, Option.bind_some, ho, Option.getD_some]
    exact Service.FormatCall.stage_of_outcome? ho
  files := rfl

/-- The complaint and the other failure do not show: not in a task, not in a service, and not on the
command line. -/
theorem diagnostics_hidden_complaint :
    (otherBadTask.state 14).machine.outcome? = some (.failed (.nonZeroExit 1)) ∧
    (complainingRun.state 19).machine.formats = (goodRun.state 19).machine.formats ∧
    (Command.format formatInPlace).run (servicesOf complainingRun) {} withOptions =
      (Command.format formatInPlace).run (servicesOf goodRun) {} withOptions ∧
    (Command.format formatInPlace).run (servicesOf otherBadRun) {} withOptions =
      (Command.format formatInPlace).run (servicesOf badRun) {} withOptions := by
  have htask : badTask.Alike otherBadTask :=
    Execution.ofLabels_alike (alike_taskActsFor alike_otherFailure) _ _
  have hgood : goodRun.Alike complainingRun :=
    Execution.ofLabels_alike (alike_turnsFor alike_complaint) _ _
  have hbad : badRun.Alike otherBadRun :=
    Execution.ofLabels_alike (alike_turnsFor alike_otherFailure) _ _
  have hp : prepare withOptions formatInPlace = .ok ⟨{}, {}, inPlaceRequest⟩ := by decide +kernel
  have hformatted : firstAnswer? goodRun = some (inPlaceRequest, .completed "int x;\n") := by
    decide +kernel
  have hcomplained : firstAnswer? complainingRun =
      some (inPlaceRequest, .completed "int x;\n") := by
    decide +kernel
  have hfailed : firstAnswer? badRun = some (inPlaceRequest, .failed (.nonZeroExit 1)) := by
    decide +kernel
  have hfailed' : firstAnswer? otherBadRun = some (inPlaceRequest, .failed (.nonZeroExit 1)) := by
    decide +kernel
  have houtcome : (badTask.state 14).machine.outcome? = some (.failed (.nonZeroExit 1)) := by
    decide +kernel
  refine ⟨?_, ?_, ?_, ?_⟩
  · rw [← houtcome]
    exact ((diagnostics_hidden.1 _ _ _ _ badTask).1 _ htask 14 le_rfl).2.1
  · exact ((diagnostics_hidden.2.1 _ _ _ goodRun).1 _ hgood 19 le_rfl).1
  · refine diagnostics_hidden.2.2 _ _ _ _ _ fun p hp' => ?_
    obtain rfl := Except.ok.inj (hp.symm.trans hp')
    exact ⟨goodRun, complainingRun, hgood, answers_servicesOf hformatted _ _,
      answers_servicesOf hcomplained _ _⟩
  · refine diagnostics_hidden.2.2 _ _ _ _ _ fun p hp' => ?_
    obtain rfl := Except.ok.inj (hp.symm.trans hp')
    exact ⟨badRun, otherBadRun, hbad, answers_servicesOf hfailed _ _,
      answers_servicesOf hfailed' _ _⟩

end SourceFormat.Cli
