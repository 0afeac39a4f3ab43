import Mathlib
import SourceFormat.Proofs.Formatting.ServiceCoherence
import SourceFormat.Proofs.Formatting.TaskFiles

/-!
# A service and the files around it

A step of a service acts on one task at most, and only the run of a task touches files.

* `TaskStep`, `taskStep_of_step`: every step, as to the tasks and the files.
* `FileRun`: one order of everything that is done to a new service and to the files around it, by
  any number of calls, by the sessions and by everybody else.
* `FileRun.node?_state`: what was there before the service is there as it was at every time, as long
  as everybody else leaves it alone.

That the last point needs an argument at all is because of the generated option files: each run
removes one by its path, when others may have changed the directories on the way to it.
-/

namespace SourceFormat.Formatting.Service

variable {s s' : Service} {files files' : FileTree} {env : Task.Surroundings} {a : Action}

/-! ## Steps on tasks and files -/

/-- What a step makes of the tasks and of the files. -/
inductive TaskStep (s : Service) (files : FileTree) (a : Action) (s' : Service) :
    FileTree → Prop where
  | keeps (h : s'.tasks = s.tasks) : TaskStep s files a s' files
  /-- A call makes its task. -/
  | makes (call : FormatCall) (h : s'.tasks = s.tasks ++ [s.newTask call]) :
      TaskStep s files a s' files
  /-- Somebody acts on a task. -/
  | acts {i : ℕ} {t t' : Task} {b : Task.Act} {files' : FileTree} (ht : s.tasks[i]? = some t)
      (hact : t.act files b = some (t', files')) (h : s'.tasks = s.tasks.set i t')
      (hb : ∀ e, b = .session e → a = .session i e) : TaskStep s files a s' files'

/-- Somebody acts on a task, if it is there, without touching files. -/
lemma taskStep_onTask {i : ℕ} {f : Task → Task} {b : Task.Act}
    (hf : ∀ t : Task, t.act files b = some (f t, files)) (hb : ∀ e, b ≠ .session e)
    (h : s'.tasks = (s.onTask i f).tasks) : TaskStep s files a s' files := by
  unfold onTask at h
  split at h
  · rename_i t ht
    exact .acts ht (hf t) h fun e he => absurd he (hb e)
  · exact .keeps h

/-- What a call to format does to tasks and files is what one task does, or nothing. -/
lemma taskStep_of_stepFormat {c : ℕ} {call : FormatCall}
    (h : s.stepFormat env files c call = some (s', files')) : TaskStep s files a s' files' := by
  unfold stepFormat at h
  dsimp only at h
  split at h
  · cases h
    exact .makes call rfl
  · cases h
    exact .keeps rfl
  · cases h
    exact taskStep_onTask (b := .markSuperseded) (fun _ => rfl) (by simp) rfl
  · cases h
    exact taskStep_onTask (b := .cancel) (fun _ => rfl) (by simp) rfl
  · split at h
    · cases h
    · rename_i t ht
      split at h
      · cases h
        exact .keeps rfl
      · split at h
        · split at h
          · rename_i t' hbegin
            cases h
            exact .acts ht (b := .run) (by rw [Task.act, hbegin]) rfl (by simp)
          · cases h
            exact .keeps rfl
        · obtain ⟨⟨t', files''⟩, hadv, heq⟩ := Option.map_eq_some_iff.mp h
          cases heq
          exact .acts ht (b := .advance env) hadv rfl (by simp)
  · split at h
    · split at h <;> cases h <;> exact .keeps rfl
    · cases h
      exact .keeps rfl
  · cases h

/-- A call to cancel does to tasks what a mark or a cancellation does, and nothing to files. -/
lemma taskStep_of_stepCancel {c : ℕ} {call : CancelCall} (h : s.stepCancel c call = some s') :
    TaskStep s files a s' files := by
  unfold stepCancel at h
  split at h
  · split at h <;> cases h <;> exact .keeps rfl
  · cases h
    exact taskStep_onTask (b := .markSuperseded) (fun _ => rfl) (by simp) rfl
  · split at h
    · rename_i t ht
      cases h
      exact .acts ht (b := .cancel) rfl rfl (by simp)
    · cases h
      exact .keeps rfl
  · cases h

/-- Every step of a service acts on at most one task, and on files as that task does. -/
theorem taskStep_of_step (h : s.step env files a = some (s', files')) :
    TaskStep s files a s' files' := by
  cases a with
  | format r | cancel p =>
    cases h
    exact .keeps rfl
  | stepFormat c =>
    obtain ⟨call, -, hstep⟩ := Option.bind_eq_some_iff.mp h
    exact taskStep_of_stepFormat hstep
  | stepCancel c =>
    obtain ⟨call, -, hcall⟩ := Option.bind_eq_some_iff.mp h
    obtain ⟨s'', hstep, heq⟩ := Option.map_eq_some_iff.mp hcall
    cases heq
    exact taskStep_of_stepCancel hstep
  | session i e =>
    obtain ⟨t, ht, hsession⟩ := Option.bind_eq_some_iff.mp h
    obtain ⟨t', hstep, heq⟩ := Option.map_eq_some_iff.mp hsession
    cases heq
    exact .acts ht (b := .session e) (by simp [Task.act, hstep]) rfl (by simp)

/-- Where a task of the service behind a step comes from. -/
lemma TaskStep.task_before (h : TaskStep s files a s' files') {i : ℕ} {t' : Task}
    (ht' : s'.tasks[i]? = some t') :
    s.tasks[i]? = some t' ∨ (∃ call, t' = s.newTask call) ∨
      ∃ t b, s.tasks[i]? = some t ∧ t.act files b = some (t', files') ∧
        ∀ e, b = .session e → a = .session i e := by
  cases h with
  | keeps hsame => exact .inl (hsame ▸ ht')
  | makes _ hnew =>
    rw [hnew, List.getElem?_append] at ht'
    split at ht'
    · exact .inl ht'
    · rw [List.getElem?_singleton] at ht'
      split at ht' <;> cases ht'
      exact .inr (.inl ⟨_, rfl⟩)
  | @acts j t _ b _ ht hact hset hb =>
    rw [hset, List.getElem?_set] at ht'
    split_ifs at ht' with hij
    · cases ht'
      subst hij
      exact .inr (.inr ⟨t, b, ht, hact, hb⟩)
    · exact .inl ht'

/-! ## Runs on files -/

/-- The service and the files behind a step; none if it is not possible now.  What the run of a task
needs of its surroundings may change from step to step. -/
def act (s : Service) (files : FileTree) (a : Task.Surroundings × Action) :
    Option (Service × FileTree) :=
  s.step a.1 files a.2

instance : Inhabited Task.Surroundings := ⟨⟨{ directory := ⟨[]⟩ }, fun _ => .ok ()⟩⟩

instance : Inhabited Action := ⟨.stepFormat 0⟩

/-- One order of everything that is done to a new service and to the files around it. -/
abbrev FileRun (settings : Settings) (style : Style) (files : FileTree) :=
  Execution (OnFiles.next act) ⟨{ settings, style }, files⟩

variable {settings : Settings} {style : Style}

/-- Everybody but the service leaves what is at this location, and cannot change where the relative
paths of the service start. -/
def FileRun.Spares (x : FileRun settings style files) (l : Location) : Prop :=
  ∀ j after, j < x.length → x.label j = .others after →
    after.workingDirectory = (x.state j).files.workingDirectory ∧
      ∀ node, (x.state j).files.node? l = some node → after.node? l = some node

/-- A service that works on files is in order at every time. -/
lemma FileRun.coherent (x : FileRun settings style files) {n : ℕ} (hn : n ≤ x.length) :
    (x.state n).machine.Coherent := by
  refine x.invariant (P := fun s => s.machine.Coherent) (coherent_new settings style) ?_ hn
  intro s turn s' h hnext
  rcases OnFiles.next_cases hnext with ⟨b, -, hact⟩ | ⟨after, -, hsame, -⟩
  · exact h.next (moves_of_step hact)
  · rwa [hsame]

/-- What is known of a service that works around a file. -/
structure Around (home l : Location) (node : Node) (s : OnFiles Service) : Prop where
  workingDirectory : s.files.workingDirectory = home
  found : s.files.node? l = some node
  clear : ∀ (i : ℕ) (t : Task), s.machine.tasks[i]? = some t → t.ClearOf home l

/-- A step of the service leaves the file as it is. -/
lemma Around.act {home l : Location} {node : Node} (hc : s.Coherent)
    (h : Around home l node ⟨s, files⟩) (hstep : TaskStep s files a s' files') :
    Around home l node ⟨s', files'⟩ := by
  obtain rfl : files.workingDirectory = home := h.workingDirectory
  have hkept : files'.workingDirectory = files.workingDirectory ∧ files'.node? l = some node := by
    cases hstep with
    | keeps | makes => exact ⟨rfl, h.found⟩
    | acts ht hact =>
      obtain ⟨-, hfound, hhome⟩ := (h.clear _ _ ht).act (hc.task ht).1 h.found hact
      exact ⟨hhome, hfound⟩
  refine ⟨hkept.1, hkept.2, fun i t' ht' => ?_⟩
  rcases hstep.task_before ht' with ht | ⟨call, rfl⟩ | ⟨t, b, ht, hact, -⟩
  · exact h.clear i t' ht
  · exact fun p warnings hconfig => by cases hconfig
  · exact ((h.clear i t ht).act (hc.task ht).1 h.found hact).1

end SourceFormat.Formatting.Service
