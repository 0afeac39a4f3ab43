import Mathlib
import SourceFormat.Proofs.Formatting.TaskTurns
import SourceFormat.Proofs.Subprocess.SessionLifecycle

/-!
# The life of a task

Any number of callers may run the same task at the same time, and each of them goes through the same
steps.  The cell with the state of the task is written to without a look in all places but one: only
the first step of a run looks at it.  So it is this look that has to keep all calls but one from
ever getting to the other places.

Here every call has a place of its own, and takes its steps from there.

* `TaskState.Follows`, `Stage.Fits`: the order of the states, and the state that goes with each
  stage of a run.
* `Crowd`: a task with all the calls that may ever run it.  To supersede it is to mark and to cancel
  it, and other steps may come between the two.
* `Crowd.RunBy`: one call has the run, and every other call has not begun or was refused.
* `one_effective_run`: the life of a task as a whole.
-/

namespace SourceFormat.Formatting

open Subprocess (Session)

/-! ## The order of the states -/

namespace TaskState

/-- Whether a state is final. -/
def isFinal : TaskState → Bool
  | completed | failed | cancelled => true
  | idle | resolvingConfig | formatting => false

/-- A move of the state.  A task is not completed without the formatter. -/
inductive Follows : TaskState → TaskState → Prop where
  | begins : Follows idle resolvingConfig
  | enters : Follows resolvingConfig formatting
  | failsEarly : Follows resolvingConfig failed
  | cancelledEarly : Follows resolvingConfig cancelled
  | completes : Follows formatting completed
  | fails : Follows formatting failed
  | cancelledLate : Follows formatting cancelled

/-- No state follows a final one. -/
lemma Follows.isFinal_eq_false {a b : TaskState} (h : Follows a b) : a.isFinal = false := by
  cases h <;> rfl

end TaskState

namespace Task

/-- The states that go with a stage of the run. -/
def Stage.Fits : Stage → TaskState → Prop
  | unrun, state => state = .idle
  | resolving, state | checking _, state | entering _, state => state = .resolvingConfig
  | starting _, state | guarding _, state | recalling _, state | awaiting _, state
  | closing _ _, state => state = .formatting
  | finishing _ o, state => state = .formatting ∨ state = .resolvingConfig ∧ o.state ≠ .completed
  | unwinding _ o, state | returned o, state => state = o.state

variable {t t' : Task} {env : Surroundings} {files files' : FileTree} {marking recalling : Prop}

/-- The end of a run moves the state to the one of its outcome. -/
lemma follows_outcome {state : TaskState} {o : Outcome}
    (h : state = .formatting ∨ state = .resolvingConfig ∧ o.state ≠ .completed) :
    state.Follows o.state := by
  rcases h with rfl | ⟨rfl, hne⟩
  · cases o
    · exact .completes
    · exact .fails
    · exact .cancelledLate
  · cases o
    · exact absurd rfl hne
    · exact .failsEarly
    · exact .cancelledEarly

/-- Every move of a task takes its stage and its state on together. -/
lemma fits_moves (h : t.stage.Fits t.state) (hmoves : Moves marking recalling t t') :
    t'.stage.Fits t'.state := by
  cases hmoves with
  | stays | marks | cancels => exact h
  | begins =>
    by_cases hi : t.state = .idle
    · rw [begin_of_idle hi]
      rfl
    · rwa [begin_of_not_idle hi]
  | advances hadv =>
    cases advances_of_advance hadv with
    | unresolved hs | giveUp hs =>
      rw [hs] at h
      exact .inr ⟨h, by simp [Outcome.state]⟩
    | unstarted hs | close hs =>
      rw [hs] at h
      exact .inl h
    | enter | finishHeld | finish => rfl
    | resolved hs | goOn hs | started hs | seen hs | unseen hs | recalled hs | ended hs
    | unwind hs => rwa [hs] at h
  | happens hstep =>
    obtain ⟨session, -, rfl⟩ := sessionStep_eq_some hstep
    exact h

/-- What a step of anybody makes of the state. -/
lemma follows_of_moves (h : t.stage.Fits t.state) (hmoves : Moves marking recalling t t') :
    t'.state = t.state ∨ t.state.Follows t'.state := by
  cases hmoves with
  | stays | marks | cancels => exact .inl rfl
  | begins =>
    by_cases hi : t.state = .idle
    · rw [begin_of_idle hi, hi]
      exact .inr .begins
    · rw [begin_of_not_idle hi]
      exact .inl rfl
  | advances hadv =>
    cases advances_of_advance hadv with
    | enter hs =>
      rw [hs] at h
      exact .inr (h ▸ .enters)
    | finishHeld hs | finish hs =>
      rw [hs] at h
      exact .inr (follows_outcome h)
    | _ => exact .inl rfl
  | happens hstep =>
    obtain ⟨session, -, rfl⟩ := sessionStep_eq_some hstep
    exact .inl rfl

/-- Nobody takes the run back. -/
lemma position_le_of_moves (hc : t.Coherent) (hmoves : Moves marking recalling t t') :
    t.stage.position ≤ t'.stage.position := by
  cases hmoves with
  | stays | marks | cancels => exact le_rfl
  | begins =>
    by_cases hi : t.state = .idle
    · simp [hc.idle.mp hi, Stage.position]
    · rw [begin_of_not_idle hi]
  | advances hadv => exact (position_lt_of_advance hadv).le
  | happens hstep =>
    obtain ⟨session, -, rfl⟩ := sessionStep_eq_some hstep
    exact le_rfl

/-- The run starts its session as the first. -/
lemma Coherent.start_ne_alreadyStarted (hc : t.Coherent) (hp : t.stage.position ≤ 4)
    (r : Subprocess.Request) (launch : Except SystemError Unit) :
    (t.session.start r launch).1 ≠ .error .alreadyStarted := by
  intro ha
  have hr := Session.startResult (Prod.mk.eta (p := t.session.start r launch)).symm
  rw [ha] at hr
  generalize (t.session.start r launch).2 = s' at hr
  cases hr with
  | again hne => exact hne (by rw [hc.fresh hp])

/-- Without a process there is nothing to cancel. -/
lemma Coherent.cancel_of_unborn (hc : t.Coherent) (hl : t.session.life = .unborn) :
    t.cancel = (false, t) := by
  have habsent : t.session.supervisor = .absent := by
    by_contra hne
    exact hc.session.life_ne_unborn hne hl
  have hunder := hc.session.under
  rw [habsent] at hunder
  have hs : t.session.state ≠ .started := by rcases hunder with h | h <;> simp [h]
  simp [Task.cancel, Session.cancel_of_not_started hs]

/-! ## A task and those who run it -/

/-- Where a call to run a task is. -/
inductive RunCall where
  /-- It has not begun, and may never do so. -/
  | pending
  /-- It has the run, and this is what it does next. -/
  | running (stage : Stage)
  /-- It has returned with this, because the task had been run before. -/
  | refused (outcome : Outcome)

/-- What a call has returned with. -/
def RunCall.outcome? : RunCall → Option Outcome
  | running (.returned o) | refused o => some o
  | _ => none

/-- A task with everybody who may run it. -/
structure Crowd where
  task : Task
  calls : ℕ → RunCall := fun _ => .pending

namespace Crowd

/-- A step of somebody who has to do with a task. -/
inductive Act where
  /-- Call `c` begins. -/
  | begin (c : ℕ)
  /-- Call `c`, which has the run, goes on. -/
  | advance (c : ℕ) (env : Surroundings)
  | markSuperseded
  | cancel
  | session (e : Session.Event)

instance : Inhabited Act := ⟨.cancel⟩

/-- The crowd when call `c` is somewhere else. -/
def place (s : Crowd) (c : ℕ) (call : RunCall) : Crowd :=
  { s with calls := Function.update s.calls c call }

/-- The crowd and the files behind an act; none if it is not possible now. -/
def step (s : Crowd) (files : FileTree) : Act → Option (Crowd × FileTree)
  | .begin c =>
    match s.calls c with
    | .pending =>
      match s.task.begin with
      | (true, task) => some ({ s with task }.place c (.running task.stage), files)
      | (false, task) => some ({ s with task }.place c (.refused rerunOutcome), files)
    | _ => none
  | .advance c env =>
    match s.calls c with
    | .running stage =>
      ({ s.task with stage }.advance env files).map fun (task, files) =>
        ({ s with task }.place c (.running task.stage), files)
    | _ => none
  | .markSuperseded => some ({ s with task := s.task.markSuperseded }, files)
  | .cancel => some ({ s with task := s.task.cancel.2 }, files)
  | .session e => (s.task.sessionStep e).map fun task => ({ s with task }, files)

/-- One order of everything that is done to a new task and to the files around it. -/
abbrev Run (request : Request) (settings : Settings) (style : Style) (files : FileTree) :=
  Execution (OnFiles.next step) ⟨{ task := { request, settings, style } }, files⟩

variable {s s' : Crowd} {c d : ℕ} {a : Act}

@[simp] lemma place_task (s : Crowd) (c : ℕ) (call : RunCall) :
    (s.place c call).task = s.task := rfl

@[simp] lemma place_calls_self (s : Crowd) (c : ℕ) (call : RunCall) :
    (s.place c call).calls c = call :=
  Function.update_self ..

/-- A call that is placed leaves the others where they are. -/
lemma place_calls_of_ne (h : d ≠ c) (s : Crowd) (call : RunCall) :
    (s.place c call).calls d = s.calls d :=
  Function.update_of_ne h ..

/-- An act, with what it finds. -/
inductive Steps (s : Crowd) (files : FileTree) : Act → Crowd → FileTree → Prop where
  | first {c : ℕ} (hc : s.calls c = .pending) (hi : s.task.state = .idle) :
      Steps s files (.begin c)
        ({ s with task := s.task.begin.2 }.place c (.running s.task.begin.2.stage)) files
  | again {c : ℕ} (hc : s.calls c = .pending) (hi : s.task.state ≠ .idle) :
      Steps s files (.begin c) (s.place c (.refused rerunOutcome)) files
  | advance {c : ℕ} {env : Surroundings} {stage : Stage} {task : Task} {files' : FileTree}
      (hc : s.calls c = .running stage)
      (hadv : Task.advance env { s.task with stage } files = some (task, files')) :
      Steps s files (.advance c env) ({ s with task }.place c (.running task.stage)) files'
  | markSuperseded :
      Steps s files .markSuperseded { s with task := s.task.markSuperseded } files
  | cancel : Steps s files .cancel { s with task := s.task.cancel.2 } files
  | session {e : Session.Event} {task : Task} (h : s.task.sessionStep e = some task) :
      Steps s files (.session e) { s with task } files

/-- The first call to run a task gets the run. -/
lemma step_begin_of_idle (hc : s.calls c = .pending) (hi : s.task.state = .idle) :
    s.step files (.begin c) =
      some ({ s with task := s.task.begin.2 }.place c (.running s.task.begin.2.stage), files) := by
  simp only [step, hc, begin_of_idle hi]

/-- A call to run a task that has been run is refused. -/
lemma step_begin_of_not_idle (hc : s.calls c = .pending) (hi : s.task.state ≠ .idle) :
    s.step files (.begin c) = some (s.place c (.refused rerunOutcome), files) := by
  simp only [step, hc, begin_of_not_idle hi]

/-- Every act that is possible is one of these steps. -/
lemma steps_of_step (h : s.step files a = some (s', files')) : Steps s files a s' files' := by
  cases a with
  | begin c =>
    have hc : s.calls c = .pending := by
      simp only [step] at h
      split at h
      · assumption
      · cases h
    by_cases hi : s.task.state = .idle
    · rw [step_begin_of_idle hc hi] at h
      cases h
      exact .first hc hi
    · rw [step_begin_of_not_idle hc hi] at h
      cases h
      exact .again hc hi
  | advance c env =>
    simp only [step] at h
    split at h
    · obtain ⟨⟨task, files''⟩, hadv, heq⟩ := Option.map_eq_some_iff.mp h
      cases heq
      exact .advance ‹_› hadv
    · cases h
  | markSuperseded => cases h; exact .markSuperseded
  | cancel => cases h; exact .cancel
  | session e =>
    obtain ⟨task, hstep, heq⟩ := Option.map_eq_some_iff.mp h
    cases heq
    exact .session hstep

/-! ## One call has the run -/

/-- Nobody has begun. -/
structure Unrun (s : Crowd) : Prop where
  stage : s.task.stage = .unrun
  calls : ∀ d, s.calls d = .pending

/-- Call `c` has the run, and every other call has not begun or was refused. -/
structure RunBy (s : Crowd) (c : ℕ) : Prop where
  begun : s.task.stage ≠ .unrun
  running : s.calls c = .running s.task.stage
  others : ∀ d, d ≠ c → s.calls d = .pending ∨ s.calls d = .refused rerunOutcome

/-- Whoever is running is the one who has the run, at the stage of the task. -/
lemma RunBy.eq_of_running (h : s.RunBy c) {stage : Stage} (hd : s.calls d = .running stage) :
    d = c ∧ stage = s.task.stage := by
  by_cases hdc : d = c
  · subst hdc
    exact ⟨rfl, RunCall.running.inj (hd.symm.trans h.running)⟩
  · rcases h.others d hdc with hd' | hd' <;> cases hd.symm.trans hd'

/-- The parts of a crowd fit together. -/
structure Sound (s : Crowd) : Prop where
  coherent : s.task.Coherent
  fits : s.task.stage.Fits s.task.state
  manned : s.Unrun ∨ ∃ c, s.RunBy c

/-- In a crowd in order a call that is running has the run. -/
lemma Sound.runBy_of_running (h : s.Sound) {stage : Stage} (hc : s.calls c = .running stage) :
    s.RunBy c ∧ stage = s.task.stage := by
  rcases h.manned with hunrun | ⟨d, hd⟩
  · cases hc.symm.trans (hunrun.calls c)
  · obtain ⟨rfl, hstage⟩ := hd.eq_of_running hc
    exact ⟨hd, hstage⟩

/-- A new task has a crowd in order. -/
lemma sound_new (request : Request) (settings : Settings) (style : Style) :
    Sound { task := { request, settings, style } } where
  coherent := coherent_new request settings style
  fits := rfl
  manned := .inl ⟨rfl, fun _ => rfl⟩

/-- Whoever acts, it is a step on the task: the one who goes on does so from where the run is. -/
lemma Steps.moves (hsound : s.Sound) (h : Steps s files a s' files') :
    s.task.Moves True True s'.task := by
  cases h with
  | again => exact .stays
  | first => exact .begins
  | advance hc hadv =>
    obtain ⟨-, rfl⟩ := hsound.runBy_of_running hc
    exact .advances hadv
  | markSuperseded => exact .marks trivial
  | cancel => exact .cancels trivial
  | session hstep => exact .happens hstep

/-- The run stays with the call that has it, and every other call that begins is refused. -/
lemma RunBy.steps (hsound : s.Sound) (h : s.RunBy c) (hstep : Steps s files a s' files') :
    s'.RunBy c := by
  cases hstep with
  | first _ hi => exact absurd (hsound.coherent.idle.mp hi) h.begun
  | @again e he =>
    have hec : c ≠ e := by
      rintro rfl
      cases h.running.symm.trans he
    refine ⟨h.begun, by rw [place_calls_of_ne hec, h.running, place_task], fun d hdc => ?_⟩
    by_cases hde : d = e
    · subst hde
      exact .inr (place_calls_self ..)
    · rw [place_calls_of_ne hde]
      exact h.others d hdc
  | @advance _ _ _ task _ he hadv =>
    obtain ⟨rfl, -⟩ := h.eq_of_running he
    refine ⟨fun hunrun => ?_, place_calls_self .., fun d hdc => ?_⟩
    · -- a run that has gone on is behind its beginning
      have hpos := position_lt_of_advance hadv
      rw [show task.stage = .unrun from hunrun] at hpos
      exact absurd hpos (Nat.not_lt_zero _)
    · rw [place_calls_of_ne hdc]
      exact h.others d hdc
  | markSuperseded | cancel => exact { h with }
  | session hstep =>
    obtain ⟨session, -, rfl⟩ := sessionStep_eq_some hstep
    exact { h with }

/-- As long as nobody has begun, the first one who does gets the run. -/
lemma Unrun.steps (hsound : s.Sound) (h : s.Unrun) (hstep : Steps s files a s' files') :
    s'.Unrun ∨ ∃ c, s'.RunBy c := by
  cases hstep with
  | @first c hc hi =>
    refine .inr ⟨c, by simp [begin_of_idle hi], place_calls_self .., fun d hdc => .inl ?_⟩
    rw [place_calls_of_ne hdc]
    exact h.calls d
  | again _ hi => exact absurd (hsound.coherent.idle.mpr h.stage) hi
  | advance hc => cases hc.symm.trans (h.calls _)
  | markSuperseded | cancel => exact .inl { h with }
  | session hstep =>
    obtain ⟨session, -, rfl⟩ := sessionStep_eq_some hstep
    exact .inl { h with }

/-- No step of anybody breaks the order of a crowd. -/
lemma Sound.steps (h : s.Sound) (hstep : Steps s files a s' files') : s'.Sound where
  coherent := h.coherent.moves (hstep.moves h)
  fits := fits_moves h.fits (hstep.moves h)
  manned := by
    rcases h.manned with hunrun | ⟨c, hc⟩
    · exact hunrun.steps h hstep
    · exact .inr ⟨c, hc.steps h hstep⟩

/-- A call that has returned takes no more steps. -/
lemma Steps.call_kept (h : Steps s files a s' files') {o : Outcome}
    (ho : (s.calls c).outcome? = some o) : s'.calls c = s.calls c := by
  cases h with
  | @first d hd | @again d hd =>
    refine place_calls_of_ne ?_ ..
    rintro rfl
    rw [hd] at ho
    cases ho
  | @advance d env stage task _ hd hadv =>
    refine place_calls_of_ne ?_ ..
    rintro rfl
    rw [hd] at ho
    cases stage <;> simp [RunCall.outcome?] at ho
    simp [Task.advance] at hadv
  | markSuperseded | cancel | session => rfl

/-! ## All orders of the steps -/

variable {request : Request} {settings : Settings} {style : Style}

/-- The task at a time. -/
abbrev Run.task (x : Run request settings style files) (i : ℕ) : Task := (x.state i).machine.task

/-- Where the calls are at a time. -/
abbrev Run.calls (x : Run request settings style files) (i : ℕ) : ℕ → RunCall :=
  (x.state i).machine.calls

/-- Step `i` is one of the run, which call `c` takes from this stage. -/
def Run.AdvancesFrom (x : Run request settings style files) (c : ℕ) (stage : Stage) (i : ℕ) :
    Prop :=
  i < x.length ∧ (∃ env, x.label i = .act (.advance c env)) ∧ x.calls i c = .running stage

/-- A turn is an act of the crowd, or it leaves the crowd alone. -/
lemma steps_of_next {s s' : OnFiles Crowd} {a : OnFiles.Turn Act}
    (h : OnFiles.next step s a = some s') :
    (∃ b, a = .act b ∧ Steps s.machine s.files b s'.machine s'.files) ∨ s'.machine = s.machine := by
  rcases OnFiles.next_cases h with ⟨b, hb, hstep⟩ | ⟨after, -, hsame, -⟩
  · exact .inl ⟨b, hb, steps_of_step hstep⟩
  · exact .inr hsame

/-- No turn breaks the order of a crowd, whatever others do to the files. -/
lemma Sound.next {s s' : OnFiles Crowd} {a : OnFiles.Turn Act} (h : s.machine.Sound)
    (hnext : OnFiles.next step s a = some s') : s'.machine.Sound := by
  rcases steps_of_next hnext with ⟨b, -, hstep⟩ | hsame
  · exact h.steps hstep
  · rwa [hsame]

/-- The crowd is in order at every time of a run. -/
lemma sound_state (x : Run request settings style files) {i : ℕ} (hi : i ≤ x.length) :
    (x.state i).machine.Sound := by
  refine x.invariant (P := fun s => s.machine.Sound) (sound_new request settings style) ?_ hi
  intro s a s' h hnext
  exact h.next hnext

/-- What every act of a sound crowd keeps holds from one time on. -/
lemma kept_of_le (x : Run request settings style files) {P : Crowd → Prop}
    (hP : ∀ {s s' : Crowd} {files files' : FileTree} {a : Act}, s.Sound → P s →
      Steps s files a s' files' → P s') {i k : ℕ} (hi : P (x.state i).machine) (hik : i ≤ k)
    (hk : k ≤ x.length) : P (x.state k).machine := by
  refine (x.invariant_from (P := fun s => s.machine.Sound ∧ P s.machine) ?_
    ⟨sound_state x (hik.trans hk), hi⟩ hik hk).2
  rintro s a s' ⟨hs, hp⟩ hnext
  refine ⟨hs.next hnext, ?_⟩
  rcases steps_of_next hnext with ⟨b, -, hstep⟩ | hsame
  · exact hP hs hp hstep
  · rwa [hsame]

/-- Every step of a run moves the task, or leaves it. -/
lemma task_moves (x : Run request settings style files) {i : ℕ} (hi : i < x.length) :
    (x.task i).Moves True True (x.task (i + 1)) := by
  rcases steps_of_next (x.next_state i hi) with ⟨b, -, hstep⟩ | hsame
  · exact hstep.moves (sound_state x hi.le)
  · rw [Run.task, Run.task, hsame]
    exact .stays

/-- Whoever has the run keeps it. -/
lemma runBy_of_le (x : Run request settings style files) {i k c : ℕ}
    (h : (x.state i).machine.RunBy c) (hik : i ≤ k) (hk : k ≤ x.length) :
    (x.state k).machine.RunBy c := by
  refine kept_of_le x (P := fun s => s.RunBy c) ?_ h hik hk
  intro s s' files files' a hs hp hstep
  exact hp.steps hs hstep

/-- A call that has returned stays as it is. -/
lemma calls_of_le (x : Run request settings style files) {i k c : ℕ} {o : Outcome}
    (ho : (x.calls i c).outcome? = some o) (hik : i ≤ k) (hk : k ≤ x.length) :
    x.calls k c = x.calls i c := by
  refine kept_of_le x (P := fun s => s.calls c = x.calls i c) ?_ rfl hik hk
  intro s s' files files' a _ hp hstep
  rw [hstep.call_kept (hp ▸ ho), hp]

/-- The stage of the task never falls. -/
lemma position_of_le (x : Run request settings style files) {i k : ℕ} (hik : i ≤ k)
    (hk : k ≤ x.length) : (x.task i).stage.position ≤ (x.task k).stage.position := by
  refine kept_of_le x (P := fun s => (x.task i).stage.position ≤ s.task.stage.position) ?_ le_rfl
    hik hk
  intro s s' files files' a hs hp hstep
  exact hp.trans (position_le_of_moves hs.coherent (hstep.moves hs))

/-- A call that goes on takes the run a stage further. -/
lemma Run.AdvancesFrom.positions {x : Run request settings style files} {c i : ℕ} {stage : Stage}
    (h : x.AdvancesFrom c stage i) :
    (x.task i).stage = stage ∧ stage.position < (x.task (i + 1)).stage.position := by
  obtain ⟨hi, ⟨env, hlabel⟩, hc⟩ := h
  obtain ⟨-, hstage⟩ := (sound_state x hi.le).runBy_of_running hc
  refine ⟨hstage.symm, ?_⟩
  have hnext := x.next_state i hi
  rw [hlabel] at hnext
  obtain ⟨⟨s', files'⟩, hstep, heq⟩ := Option.map_eq_some_iff.mp hnext
  rw [Run.task, ← heq]
  cases steps_of_step hstep with
  | advance hc' hadv =>
    obtain rfl := RunCall.running.inj (hc.symm.trans hc')
    exact position_lt_of_advance hadv

/-- So every stage of the run is left once at most, whoever takes the step. -/
lemma Run.AdvancesFrom.unique {x : Run request settings style files} {c d i j : ℕ}
    {stage stage' : Stage} (hi : x.AdvancesFrom c stage i) (hj : x.AdvancesFrom d stage' j)
    (hpos : stage.position = stage'.position) : i = j := by
  have hlt : ∀ {c d i j : ℕ} {stage stage' : Stage}, x.AdvancesFrom c stage i →
      x.AdvancesFrom d stage' j → i < j → stage.position < stage'.position := by
    intro c d i j stage stage' hi hj hij
    calc stage.position < (x.task (i + 1)).stage.position := hi.positions.2
      _ ≤ (x.task j).stage.position := position_of_le x hij hj.1.le
      _ = stage'.position := by rw [hj.positions.1]
  rcases lt_trichotomy i j with h | h | h
  · exact absurd hpos (hlt hi hj h).ne
  · exact h
  · exact absurd hpos (hlt hj hi h).ne'

/-- No move of the state leads away from a final one. -/
lemma state_of_isFinal (x : Run request settings style files) {i k : ℕ}
    (hfinal : (x.task i).state.isFinal = true) (hik : i ≤ k) (hk : k ≤ x.length) :
    (x.task k).state = (x.task i).state := by
  refine kept_of_le x (P := fun s => s.task.state = (x.task i).state) ?_ rfl hik hk
  intro s s' files files' a hs hp hstep
  rcases follows_of_moves hs.fits (hstep.moves hs) with hsame | hfollows
  · exact hsame.trans hp
  · have hnot := hfollows.isFinal_eq_false
    rw [hp, hfinal] at hnot
    cases hnot

/-- A cancellation that finds no process leaves everything as it is. -/
lemma eq_of_cancel_unborn (x : Run request settings style files) {i : ℕ} (hi : i < x.length)
    (hlabel : x.label i = .act .cancel) (hl : (x.task i).session.life = .unborn) :
    (x.task i).cancel.1 = false ∧ x.state (i + 1) = x.state i := by
  have hcancel := (sound_state x hi.le).coherent.cancel_of_unborn hl
  refine ⟨by rw [hcancel], ?_⟩
  have hnext := x.next_state i hi
  rw [hlabel] at hnext
  simpa [OnFiles.next, step, hcancel] using hnext.symm

/-! ## The life of a task -/

/-- **One run is effective, and the state is its alone.** In every order of the steps of any number
of calls that run a task, of everybody who cancels or supersedes it, of its session and of others
who change the files:
* the state only makes the moves of `TaskState.Follows`, and stays when it is final;
* as soon as any call has begun there is one that has the run, and it has it for ever, while every
  other call has not begun or was refused; when it returns, the state is the one of its outcome, and
  both stay;
* any other call can begin at any time, is then told that the task has already run, and leaves
  everything else as it is;
* the option file is settled once at most and the session started once at most, so that nobody is
  told that it was started already;
* a cancellation that finds no process is told so, and leaves everything as it is. -/
theorem one_effective_run (x : Run request settings style files) :
    (∀ i, i < x.length → (x.task (i + 1)).state = (x.task i).state ∨
      (x.task i).state.Follows (x.task (i + 1)).state) ∧
    (∀ i k, i ≤ k → k ≤ x.length → (x.task i).state.isFinal = true →
      (x.task k).state = (x.task i).state) ∧
    (∀ i d, i ≤ x.length → x.calls i d ≠ .pending →
      ∃ c, ∀ k, i ≤ k → k ≤ x.length → (x.state k).machine.RunBy c) ∧
    (∀ i k c o, i ≤ k → k ≤ x.length → x.calls i c = .running (.returned o) →
      x.calls k c = .running (.returned o) ∧ (x.task k).state = o.state) ∧
    (∀ i c, i ≤ x.length → x.calls i c = .pending → (x.task i).state ≠ .idle →
      OnFiles.next step (x.state i) (.act (.begin c)) =
        some ⟨(x.state i).machine.place c (.refused (.failed (.general "task has already run"))),
          (x.state i).files⟩) ∧
    (∀ i k c o, i ≤ k → k ≤ x.length → x.calls i c = .refused o → x.calls k c = .refused o) ∧
    (∀ i j c d, x.AdvancesFrom c .resolving i → x.AdvancesFrom d .resolving j → i = j) ∧
    (∀ i j c d config config', x.AdvancesFrom c (.starting config) i →
      x.AdvancesFrom d (.starting config') j → i = j) ∧
    (∀ i c config r launch, x.AdvancesFrom c (.starting config) i →
      ((x.task i).session.start r launch).1 ≠ .error .alreadyStarted) ∧
    (∀ i, i < x.length → x.label i = .act .cancel → (x.task i).session.life = .unborn →
      (x.task i).cancel.1 = false ∧ x.state (i + 1) = x.state i) := by
  refine ⟨?_, ?_, ?_, ?_, ?_, ?_, ?_, ?_, ?_, ?_⟩
  · intro i hi
    exact follows_of_moves (sound_state x hi.le).fits (task_moves x hi)
  · intro i k hik hk hfinal
    exact state_of_isFinal x hfinal hik hk
  · intro i d hi hne
    rcases (sound_state x hi).manned with hunrun | ⟨c, hc⟩
    · exact absurd (hunrun.calls d) hne
    · refine ⟨c, ?_⟩
      intro k hik hk
      exact runBy_of_le x hc hik hk
  · intro i k c o hik hk hc
    have hc' := (calls_of_le x (by rw [hc]; rfl) hik hk).trans hc
    obtain ⟨-, hstage⟩ := (sound_state x hk).runBy_of_running hc'
    have hfits := (sound_state x hk).fits
    rw [← hstage] at hfits
    exact ⟨hc', hfits⟩
  · intro i c _ hc hne
    simp [OnFiles.next, step_begin_of_not_idle hc hne, rerunOutcome]
  · intro i k c o hik hk hc
    exact (calls_of_le x (by rw [hc]; rfl) hik hk).trans hc
  · intro i j c d hi hj
    exact hi.unique hj rfl
  · intro i j c d config config' hi hj
    exact hi.unique hj rfl
  · intro i c config r launch h
    apply (sound_state x h.1.le).coherent.start_ne_alreadyStarted
    rw [h.positions.1]
    exact le_rfl
  · intro i hi hlabel hl
    exact eq_of_cancel_unborn x hi hlabel hl

/-- A task that is cancelled before it has a formatter, and run again while it is running and when
it is done. -/
def ranAgain : Run { fileName := Path.ofString "a.c", text := "" } namedOptions {} optionFileOnly :=
  Execution.ofLabels (OnFiles.next step) _
    ([.cancel, .begin 0, .advance 0 launchesAll, .begin 1, .advance 0 launchesAll,
      .advance 0 launchesAll, .cancel, .advance 0 launchesAll, .advance 0 launchesAll,
      .session .processEnds, .session .noticeEnd,
      .session (.collect (.exited { exitCode := 0, stdout := "", stderr := "" })),
      .session .conclude, .session .deliver, .advance 0 launchesAll, .advance 0 launchesAll,
      .advance 0 launchesAll, .begin 2].map .act)
    rfl

/-- A task that is run by three calls, of which two are refused, one before its end and one behind
it. -/
theorem one_effective_run_ranAgain :
    (ranAgain.state 16).machine.RunBy 0 ∧
      ranAgain.state 1 = ranAgain.state 0 ∧ ranAgain.state 7 = ranAgain.state 6 ∧
      ranAgain.calls 18 0 = .running (.returned (.completed "")) ∧
      (ranAgain.task 18).state = .completed ∧
      ranAgain.calls 18 1 = .refused (.failed (.general "task has already run")) ∧
      ranAgain.calls 18 2 = .refused (.failed (.general "task has already run")) ∧
      ¬ ranAgain.AdvancesFrom 1 .resolving 4 := by
  obtain ⟨-, -, hone, hreturned, hrefuse, hrefused, hresolves, -, -, hcancel⟩ :=
    one_effective_run ranAgain
  have hrunning : ranAgain.calls 16 0 = .running (ranAgain.task 16).stage := rfl
  obtain ⟨c, hc⟩ := hone 16 0 (by decide) (by rw [hrunning]; simp)
  obtain ⟨rfl, -⟩ := (hc 16 le_rfl (by decide)).eq_of_running hrunning
  have hdone := hreturned 17 18 0 (.completed "") (by decide) (by decide) rfl
  have hlast := Option.some.inj ((ranAgain.next_state 17 (by decide)).symm.trans
    (hrefuse 17 2 (by decide) rfl (by decide)))
  exact ⟨hc 16 le_rfl (by decide), (hcancel 0 (by decide) rfl rfl).2,
    (hcancel 6 (by decide) rfl rfl).2, hdone.1, hdone.2,
    hrefused 4 18 1 _ (by decide) (by decide) rfl, by rw [Run.calls, hlast, place_calls_self],
    fun h => absurd (hresolves 2 4 0 1 ⟨by decide, ⟨_, rfl⟩, rfl⟩ h) (by decide)⟩

end Crowd

end Task

end SourceFormat.Formatting
