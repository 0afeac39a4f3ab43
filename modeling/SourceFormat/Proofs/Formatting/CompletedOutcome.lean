import Mathlib
import SourceFormat.Proofs.Formatting.ServiceFiles
import SourceFormat.Proofs.Text.Decoding

/-!
# Where a completed outcome comes from

Between the process of a task and the caller of a service stand the supervisor, who collects what
the exchange has left behind and delivers it, the run of the task, which makes an outcome of it, and
the call, which returns that outcome or drops it.  Text gets through in one way only.

* `Reports`: the outcome of a run is text only if its session has delivered the end of a process
  that succeeded, and that process was started for the request of the task.
* `FileRun.exists_collect`: so a call that has returned text goes back to one step of the session of
  its own task, by which that text was collected.
* `Remains.collected_eq_exited_iff`: and what is collected as text is the decoded standard output.
-/

namespace SourceFormat

namespace Subprocess

/-- An exchange comes to a result if and only if the end of the process was learnt, nothing went
wrong with its input, and both of its outputs were read. -/
lemma Remains.collected_eq_exited_iff (remains : Remains) (r : Result) :
    remains.collected = .exited r ↔ remains.inputFailure? = none ∧ ∃ ending out err,
      remains.status = .ok ending ∧ remains.stdout = .ok out ∧ remains.stderr = .ok err ∧
      r = ⟨ending.exitCode, Utf8.decode out, Utf8.decode err⟩ := by
  unfold collected
  simp only [streamText_eq_decode]
  split
  · simp [*]
  · split
    · simp [*]
    · split <;> simp [*, eq_comm]

namespace Session

variable {s s' : Session}

/-- The end of a process comes to the supervisor's hands by being collected. -/
lemma collect_of_step {e : Event} {r : Result} (hstep : s.step e = some s')
    (hs : s.supervisor.delivery? ≠ some (.exited r))
    (hs' : s'.supervisor.delivery? = some (.exited r)) : e = .collect (.exited r) := by
  cases happens_of_step hstep with
  | signal | processEnds | deadlinePasses => exact absurd hs' hs
  | conclude _ h | deliver _ h => exact absurd (h ▸ hs') hs
  | collect found =>
    cases found <;> simp_all [Supervisor.delivery?, Collected.delivery]
  | _ => cases hs'

/-- A supervisor that has returned does nothing more. -/
lemma supervisor_eq_of_returned {e : Event} {d : Option Delivery}
    (hs : s.supervisor = .returned d) (hstep : s.step e = some s') : s'.supervisor = .returned d := by
  cases happens_of_step hstep with
  | signal | processEnds | deadlinePasses => exact hs
  | killCancelled _ h | abandon _ h | killExpired _ h | expire _ h | noticeEnd _ h
  | reapCancelled _ h | reapExpired _ h | collect _ h | conclude _ h | concludeLate _ h
  | deliver _ h => simp [h] at hs

/-- Only a start makes a supervisor. -/
lemma supervisor_ne_absent_of_step {e : Event} (hstep : s.step e = some s')
    (hs' : s'.supervisor ≠ .absent) : s.supervisor ≠ .absent := by
  cases happens_of_step hstep with
  | signal | processEnds | deadlinePasses => exact hs'
  | killCancelled _ h | abandon _ h | killExpired _ h | expire _ h | noticeEnd _ h
  | reapCancelled _ h | reapExpired _ h | collect _ h | conclude _ h | concludeLate _ h
  | deliver _ h => simp [h]

/-- No step of a session changes its request. -/
lemma request_of_step {e : Event} (hstep : s.step e = some s') : s'.request = s.request := by
  cases happens_of_step hstep <;> rfl

/-- Cancelling a session does not change its request. -/
lemma request_of_cancel (s : Session) : s.cancel.2.request = s.request := by
  by_cases h : s.state = .started
  · rw [cancel_of_started h]
  · rw [cancel_of_not_started h]

/-- A result comes from the supervisor, who has delivered it. -/
lemma supervisor_of_outcome {r : Result} (h : s.outcome? = some (.ok (.exited r))) :
    s.supervisor = .returned (some (.exited r)) := by
  unfold outcome? at h
  split at h
  · cases h
  · rename_i d hs
    cases d with
    | exited r' =>
      cases h
      exact hs
    | failed e => cases h
  · cases h

end Session

end Subprocess

namespace Formatting

open Subprocess (Ending Remains Session)

namespace Task

variable {t t' : Task} {files files' : FileTree}

/-- The outcome of a run is text only if it is the output of the session's process, which has
succeeded, and that process was started for the task's own request. -/
structure Reports (t : Task) : Prop where
  process : t.session.supervisor ≠ .absent →
    ∃ config, t.session.request = some (t.process config)
  output : ∀ text, t.stage.outcome? = some (.completed text) →
    ∃ r, t.session.supervisor = .returned (some (.exited r)) ∧ r.success = true ∧ r.stdout = text

/-- A new task reports nothing that could be wrong. -/
lemma reports_new (request : Request) (settings : Settings) (style : Style) :
    Reports { request, settings, style } where
  process h := absurd rfl h
  output text h := by cases h

/-- Only an outcome of the session that is the end of a successful process becomes text. -/
lemma ofRun_eq_completed_iff {o : Except Subprocess.RunError Subprocess.Outcome} {text : String} :
    Outcome.ofRun o = .completed text ↔
      ∃ r, o = .ok (.exited r) ∧ r.success = true ∧ r.stdout = text := by
  unfold Outcome.ofRun
  split
  · split <;> simp_all
  · simp
  · simp

/-- A cancellation puts no text into the outcome. -/
lemma Reports.cancel (h : t.Reports) : t.cancel.2.Reports where
  process hs := by
    simp only [cancel_session, Session.cancel_supervisor] at hs
    obtain ⟨config, hconfig⟩ := h.process hs
    exact ⟨config, (Session.request_of_cancel t.session).trans hconfig⟩
  output text ho := by simpa using h.output text ho

/-- Wherever the run of a task gets to, text comes from the process alone. -/
lemma Reports.advance {env : Surroundings} (h : t.Reports)
    (hadv : t.advance env files = some (t', files')) : t'.Reports := by
  cases advances_of_advance hadv with
  | resolved | unresolved | giveUp | goOn | enter | seen | unseen =>
    exact ⟨h.process, fun text ho => by cases ho⟩
  | @started config session hs hr =>
    refine ⟨fun _ => ⟨config, ?_⟩, fun text ho => by cases ho⟩
    cases Session.startResult hr
    rfl
  | unstarted hs hr =>
    refine ⟨?_, fun text ho => by cases ho⟩
    cases Session.startResult hr <;> exact h.process
  | recalled => exact ⟨h.cancel.process, fun text ho => by cases ho⟩
  | ended hs ho =>
    refine ⟨h.process, fun text hcompleted => ?_⟩
    obtain ⟨r, rfl, hr⟩ := ofRun_eq_completed_iff.mp (Option.some.inj hcompleted)
    exact ⟨r, Session.supervisor_of_outcome ho, hr⟩
  | close hs | finishHeld hs | finish hs | unwind hs =>
    exact ⟨h.process, fun text ho => h.output text (by rw [hs]; exact ho)⟩

/-- No act puts any other text into the outcome. -/
lemma Reports.act (h : t.Reports) {a : Act} (hact : t.act files a = some (t', files')) :
    t'.Reports := by
  cases a with
  | run =>
    cases hact
    by_cases hi : t.state = .idle
    · rw [begin_of_idle hi]
      exact ⟨h.process, fun text ho => by cases ho⟩
    · rwa [begin_of_not_idle hi]
  | advance env => exact h.advance hact
  | markSuperseded =>
    cases hact
    exact ⟨h.process, h.output⟩
  | cancel =>
    cases hact
    exact h.cancel
  | session e =>
    obtain ⟨t'', hsession, heq⟩ := Option.map_eq_some_iff.mp hact
    cases heq
    obtain ⟨session, hstep, rfl⟩ := sessionStep_eq_some hsession
    refine ⟨fun hs => ?_, fun text ho => ?_⟩
    · obtain ⟨config, hconfig⟩ := h.process (Session.supervisor_ne_absent_of_step hstep hs)
      exact ⟨config, (Session.request_of_step hstep).trans hconfig⟩
    · obtain ⟨r, hr, hrest⟩ := h.output text ho
      exact ⟨r, Session.supervisor_eq_of_returned hr hstep, hrest⟩

/-- Nobody but the session makes the supervisor of a task get hold of the end of a process. -/
lemma collect_of_act {r : Subprocess.Result} {a : Act}
    (hact : t.act files a = some (t', files'))
    (h : t.session.supervisor.delivery? ≠ some (.exited r))
    (h' : t'.session.supervisor.delivery? = some (.exited r)) :
    a = .session (.collect (.exited r)) := by
  cases a with
  | run =>
    cases hact
    have hsession : t.begin.2.session = t.session := by
      unfold begin
      split <;> rfl
    exact absurd (hsession ▸ h') h
  | advance env =>
    cases advances_of_advance hact with
    | started _ hr | unstarted _ hr =>
      cases Session.startResult hr <;> first | exact absurd h' h | cases h'
    | recalled =>
      simp only [cancel_session, Session.cancel_supervisor] at h'
      exact absurd h' h
    | _ => exact absurd h' h
  | markSuperseded =>
    cases hact
    exact absurd h' h
  | cancel =>
    cases hact
    simp only [cancel_session, Session.cancel_supervisor] at h'
    exact absurd h' h
  | session e =>
    obtain ⟨t'', hsession, heq⟩ := Option.map_eq_some_iff.mp hact
    cases heq
    obtain ⟨session, hstep, rfl⟩ := sessionStep_eq_some hsession
    rw [Session.collect_of_step hstep h h']

/-- What a run has returned stays. -/
lemma stage_of_returned {marking recalling : Prop} (hc : t.Coherent) {o : Outcome}
    (hs : t.stage = .returned o) (hmoves : Moves marking recalling t t') :
    t'.stage = .returned o := by
  cases hmoves with
  | stays | marks | cancels => exact hs
  | begins =>
    have hne : t.state ≠ .idle := fun hi => by
      rw [hc.idle.mp hi] at hs
      cases hs
    rwa [begin_of_not_idle hne]
  | advances hadv => simp [Task.advance, hs] at hadv
  | happens hstep =>
    obtain ⟨session, -, rfl⟩ := sessionStep_eq_some hstep
    exact hs

end Task

namespace Service

variable {s s' : Service} {files files' : FileTree} {env : Task.Surroundings} {a : Action}
  {settings : Settings} {style : Style}

/-- A service keeps its settings. -/
lemma settings_moves (h : Moves s env files a s') : s'.settings = s.settings := by
  cases h <;> first | rfl | simp only [onTask_eq]; rfl

/-- What is known of the tasks of a service, and of the calls that return text. -/
structure Reports (settings : Settings) (s : Service) : Prop where
  settings_eq : s.settings = settings
  tasks : ∀ (i : ℕ) (t : Task), s.tasks[i]? = some t → t.Reports ∧ t.settings = settings
  calls : ∀ (c : ℕ) (call : FormatCall) (text : String), s.formats[c]? = some call →
    call.stage = .leaving (.completed text) ∨ call.stage = .returned (.completed text) →
      ∃ t, s.tasks[call.task]? = some t ∧ t.stage = .returned (.completed text)

/-- A call that returns text has it from its task. -/
lemma Reports.calls_next (hc : s.Coherent) (h : s.Reports settings) (hm : Moves s env files a s')
    {c : ℕ} {call : FormatCall} {text : String} (hcall : s'.formats[c]? = some call)
    (hs : call.stage = .leaving (.completed text) ∨ call.stage = .returned (.completed text)) :
    ∃ t, s'.tasks[call.task]? = some t ∧ t.stage = .returned (.completed text) := by
  have hpersists : ∀ {i : ℕ}, (∃ t, s.tasks[i]? = some t ∧ t.stage = .returned (.completed text)) →
      ∃ t, s'.tasks[i]? = some t ∧ t.stage = .returned (.completed text) := by
    rintro i ⟨t, ht, hreturned⟩
    obtain ⟨t', ht', hmoves, -⟩ := task_persists hm ht
    exact ⟨t', ht', Task.stage_of_returned (hc.task ht).1 hreturned hmoves⟩
  rcases format_before hm hcall with hsame | harrived | ⟨before, hbefore, hadv⟩
  · exact hpersists (h.calls c call text hsame hs)
  · simp [harrived] at hs
  · cases hadv with
    | number | mark | callOff => simp at hs
    | insert =>
      unfold FormatStage.ofDisplaced at hs
      split at hs <;> simp at hs
    | refuse => simp [Task.rerunOutcome] at hs
    | finish _ ht ho =>
      simp only [FormatStage.leaving.injEq, reduceCtorEq, or_false] at hs
      exact ⟨_, ht, hs ▸ ho⟩
    | leave hleaving =>
      simp only [FormatStage.returned.injEq, reduceCtorEq, false_or] at hs
      exact hpersists (h.calls c before text hbefore (.inl (hs ▸ hleaving)))
    | leaveStale => simp at hs

/-- No step of a service has it report any other text. -/
lemma Reports.step (hc : s.Coherent) (h : s.Reports settings)
    (hstep : s.step env files a = some (s', files')) : s'.Reports settings where
  settings_eq := (settings_moves (moves_of_step hstep)).trans h.settings_eq
  tasks i t' ht' := by
    rcases (taskStep_of_step hstep).task_before ht' with ht | ⟨call, rfl⟩ | ⟨t, b, ht, hact, -⟩
    · exact h.tasks i t' ht
    · exact ⟨Task.reports_new _ _ _, h.settings_eq⟩
    · obtain ⟨hreports, hsettings⟩ := h.tasks i t ht
      exact ⟨hreports.act hact, (Task.preferences_moves
        (Task.moves_of_act (hc.task ht).1 hact)).1.trans hsettings⟩
  calls _ _ _ hcall hs := h.calls_next hc (moves_of_step hstep) hcall hs

/-- At every time of a run, what a service reports comes from its processes. -/
lemma FileRun.reports (x : FileRun settings style files) {n : ℕ} (hn : n ≤ x.length) :
    (x.state n).machine.Reports settings := by
  induction n with
  | zero =>
    rw [x.state_zero]
    exact ⟨rfl, fun i t ht => by simp at ht, fun c call text hcall => by simp at hcall⟩
  | succ n ih =>
    rcases OnFiles.next_cases (x.next_state n hn) with ⟨b, -, hact⟩ | ⟨after, -, hsame, -⟩
    · exact (ih (by omega)).step (x.coherent (by omega)) hact
    · rw [hsame]
      exact ih (by omega)

/-- **Text that a call returns was collected in one step.** A call that has returned text goes back
to a step of the session of its own task: there the supervisor collected the end of a process that
has succeeded and whose standard output is that text, and this process was started for the request
of the call. -/
theorem FileRun.exists_collect (x : FileRun settings style files) {n c : ℕ} (hn : n ≤ x.length)
    {call : FormatCall} {text : String} (hcall : (x.state n).machine.formats[c]? = some call)
    (hs : call.stage = .returned (.completed text)) :
    ∃ j env r t config, j < n ∧
      x.label j = .act (env, .session call.task (.collect (.exited r))) ∧ r.success = true ∧
      r.stdout = text ∧ (x.state (j + 1)).machine.tasks[call.task]? = some t ∧
      t.session.request = some (call.request.process settings config) := by
  obtain ⟨t, ht, hreturned⟩ := (x.reports hn).calls c call text hcall (.inr hs)
  obtain ⟨-, t₁, ht₁, hrequest, -⟩ := (x.coherent hn).known hcall (by simp [hs])
  obtain rfl := Option.some.inj (ht.symm.trans ht₁)
  obtain ⟨r, hsupervisor, hsuccess, hstdout⟩ :=
    ((x.reports hn).tasks _ t ht).1.output text (by rw [hreturned]; rfl)
  -- the step by which the supervisor of this task has got hold of that end
  obtain ⟨j, -, hjn, hj, hj'⟩ := Execution.exists_step
    (P := fun j => ∃ t, (x.state j).machine.tasks[call.task]? = some t ∧
      t.request = call.request ∧ t.session.supervisor.delivery? = some (.exited r))
    (Nat.zero_le n) (by rw [x.state_zero]; simp) ⟨t, ht, hrequest, by rw [hsupervisor]; rfl⟩
  obtain ⟨t', ht', hrequest', hdelivery⟩ := hj'
  rcases OnFiles.next_cases (x.next_state j (by omega)) with ⟨b, hlabel, hact⟩ | ⟨_, -, hsame, -⟩
  · rcases (taskStep_of_step hact).task_before ht' with hold | ⟨_, rfl⟩ | ⟨t₀, d, ht₀, htask, hd⟩
    · exact absurd ⟨t', hold, hrequest', hdelivery⟩ hj
    · cases hdelivery
    · have hmoves := Task.moves_of_act ((x.coherent (by omega)).task ht₀).1 htask
      have hcollect : d = .session (.collect (.exited r)) := by
        refine Task.collect_of_act htask (fun hdelivery₀ => hj ⟨t₀, ht₀, ?_, hdelivery₀⟩) hdelivery
        rw [← Task.request_moves hmoves, hrequest']
      have hlabel' : x.label j = .act (b.1, .session call.task (.collect (.exited r))) := by
        rw [hlabel, ← hd _ hcollect]
      obtain ⟨hreports, hsettings⟩ := (x.reports (n := j + 1) (by omega)).tasks _ t' ht'
      obtain ⟨config, hprocess⟩ := hreports.process fun habsent => by
        rw [habsent] at hdelivery
        cases hdelivery
      rw [Task.process, hrequest', hsettings] at hprocess
      exact ⟨j, b.1, r, t', config.location.path, hjn, hlabel', hsuccess, hstdout, ht', hprocess⟩
  · exact absurd ⟨t', hsame ▸ ht', hrequest', hdelivery⟩ hj

/-! ## Runs that answer a request -/

namespace FileRun

/-- What the supervisors collect is what the exchanges with their processes have left behind. -/
def CollectsRemains (x : FileRun settings style files) : Prop :=
  ∀ j env i found, j < x.length → x.label j = .act (env, .session i (.collect found)) →
    ∃ remains : Remains, found = remains.collected

/-- The run answers this request: the first call to the service has it and returns with this answer,
and until then nobody but the service touches what is at this location. -/
structure Serves (x : FileRun settings style files) (request : Request) (l : Location)
    (answer : FileTree × Outcome) : Prop where
  returned : ∃ call, (x.state x.length).machine.formats[0]? = some call ∧
    call.request = request ∧ call.stage = .returned answer.2
  files : (x.state x.length).files = answer.1
  spares : x.Spares l
  collects : x.CollectsRemains

/-- The text is the decoded standard output of the first call's process: it was started for this
request, and it ended with exit code 0. -/
def Prints (x : FileRun settings style files) (request : Request) (text : String) : Prop :=
  ∃ (call : FormatCall) (j : ℕ) (env : Task.Surroundings) (remains : Remains) (t : Task)
    (config : Path) (ending : Ending) (out : Bytes),
    (x.state x.length).machine.formats[0]? = some call ∧ j < x.length ∧
    x.label j = .act (env, .session call.task (.collect remains.collected)) ∧
    (x.state (j + 1)).machine.tasks[call.task]? = some t ∧
    t.session.request = some (request.process settings config) ∧
    remains.status = .ok ending ∧ ending.exitCode = 0 ∧ remains.stdout = .ok out ∧
    text = Utf8.decode out

/-- Text that answers a request is the decoded output of a process. -/
lemma Serves.prints {x : FileRun settings style files} {request : Request} {l : Location}
    {after : FileTree} {text : String} (h : x.Serves request l (after, .completed text)) :
    x.Prints request text := by
  obtain ⟨call, hcall, rfl, hs⟩ := h.returned
  obtain ⟨j, env, r, t, config, hj, hlabel, hsuccess, rfl, ht, hprocess⟩ :=
    x.exists_collect le_rfl hcall hs
  obtain ⟨remains, hcollected⟩ := h.collects j env _ _ hj hlabel
  obtain ⟨-, ending, out, err, hstatus, hstdout, -, rfl⟩ :=
    (remains.collected_eq_exited_iff r).mp hcollected.symm
  rw [hcollected] at hlabel
  exact ⟨call, j, env, remains, t, config, ending, out, hcall, hj, hlabel, ht, hprocess, hstatus,
    by simpa [Subprocess.Result.success] using hsuccess, hstdout, rfl⟩

end FileRun

end Service

end Formatting

end SourceFormat
