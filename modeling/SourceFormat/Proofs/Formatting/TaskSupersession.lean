import Mathlib
import SourceFormat.Proofs.Formatting.TaskTurns

/-!
# A task that was superseded is not left running

Somebody who puts something newer in the place of a task sets its mark and then cancels it, in two
steps.  The run of the task looks for the mark, starts the formatter, looks again and cancels it if
the mark is there.  Neither side waits for the other, and the cancellation of a formatter that has
not started yet does nothing.

`supersession_not_lost`: it is the order of the steps on both sides that makes this safe.  As long
as a marked task has a running formatter, one of the two is about to cancel it; and if the mark was
set before the run looked for the second time, the formatter is not running behind that look, and
the run comes to `cancelled` unless the formatter never ran or had ended by itself before.
-/

namespace SourceFormat.Formatting

open Subprocess (Session)

namespace Task

/-! ## A task that was marked in time -/

variable {t t' : Task} {env : Surroundings} {files files' : FileTree} {p q : Prop}

/-- The run finds no option file and cannot generate one. -/
def FailsToResolve (t : Task) (env : Surroundings) (files : FileTree) : Prop :=
  t.stage = .resolving ∧ ∃ e,
    (Config.resolve files env.temporary t.request.projectRoot t.settings t.style).2 = .error e

/-- The run cannot start the formatter. -/
def FailsToStart (t : Task) (env : Surroundings) : Prop :=
  ∃ config, t.stage = .starting config ∧ ∃ e,
    (t.session.start (t.process config) (env.launch (t.process config))).1 = .error e

/-- What is known of a task that was marked before its run looked for the second time; `excused` is
the reason that there may be for an outcome other than `cancelled`. -/
structure Held (t : Task) (excused : Prop) : Prop where
  marked : t.superseded = true
  /-- The run does not wait for a formatter that is running. -/
  stopped : t.stage.position = 7 → t.session.state ≠ .started
  terminated : t.stage.position = 7 → t.session.state = .terminated → excused
  outcome : ∀ o, t.stage.outcome? = some o → o ≠ .cancelled → excused

/-- A better reason is as good. -/
lemma Held.mono (h : t.Held p) (hpq : p → q) : t.Held q where
  marked := h.marked
  stopped := h.stopped
  terminated h7 hs := hpq (h.terminated h7 hs)
  outcome o ho hne := hpq (h.outcome o ho hne)

/-- An outcome is there only behind the wait for the formatter. -/
lemma position_of_outcome {s : Stage} {o : Outcome} (h : s.outcome? = some o) :
    8 ≤ s.position := by
  cases s <;> simp_all [Stage.outcome?, Stage.position]

/-- Only where the run waits for it does the formatter matter. -/
lemma held_of_position_ne (hm : t.superseded = true) (hp : t.stage.position ≠ 7)
    (ho : ∀ o, t.stage.outcome? = some o → o ≠ .cancelled → p) : t.Held p where
  marked := hm
  stopped h7 := absurd h7 hp
  terminated h7 := absurd h7 hp
  outcome := ho

/-- Before the second look a marked task is held without any reason. -/
lemma held_of_beforeSecondLook (hm : t.superseded = true) (hb : t.stage.BeforeSecondLook) :
    t.Held p := by
  unfold Stage.BeforeSecondLook at hb
  refine held_of_position_ne hm (by omega) fun o ho => ?_
  have hpos := position_of_outcome ho
  omega

/-- Beginning its run does not free a task. -/
lemma Held.begin (h : t.Held p) : t.begin.2.Held p := by
  by_cases hi : t.state = .idle
  · rw [begin_of_idle hi]
    exact held_of_beforeSecondLook h.marked (by simp [Stage.BeforeSecondLook, Stage.position])
  · rw [begin_of_not_idle hi]
    exact h

/-- A second mark does not free a task. -/
lemma Held.markSuperseded (h : t.Held p) : t.markSuperseded.Held p :=
  { h with marked := rfl }

/-- A cancellation does not free a task. -/
lemma Held.cancel (h : t.Held p) : t.cancel.2.Held p where
  marked := h.marked
  stopped _ := cancel_session_state_ne
  terminated h7 hs := h.terminated h7 (cancel_session_state_eq_terminated_iff.mp hs)
  outcome := h.outcome

/-- No step of its session frees a task: a session that is over does not run again. -/
lemma Held.sessionStep (h : t.Held p) {e : Session.Event} (hstep : t.sessionStep e = some t') :
    t'.Held p := by
  obtain ⟨session, hsession, rfl⟩ := sessionStep_eq_some hstep
  have hstate : t.stage.position = 7 → session.state = t.session.state := fun h7 => by
    cases Session.happens_of_step hsession with
    | conclude _ _ hs => exact absurd hs (h.stopped h7)
    | _ => rfl
  exact {
    marked := h.marked
    stopped := fun h7 hs => h.stopped h7 (hstate h7 ▸ hs)
    terminated := fun h7 hs => h.terminated h7 (hstate h7 ▸ hs)
    outcome := h.outcome }

/-- The run keeps what is known, if what it finds is a reason wherever it can be one. -/
lemma Held.advance (hc : t.Coherent) (h : t.Held p) (hresolve : t.FailsToResolve env files → p)
    (hstart : t.FailsToStart env → p)
    (hended : t.stage.LookingAgain → t.session.state = .terminated → p)
    (hadv : t.advance env files = some (t', files')) : t'.Held p := by
  have hm := h.marked
  have hmoved : t'.superseded = true := by rw [superseded_of_advance hadv, hm]
  cases advances_of_advance hadv with
  | resolved | goOn | enter | started | seen | giveUp =>
    exact held_of_position_ne hmoved (by simp [Stage.position]) (by simp [Stage.outcome?])
  | unseen _ hm' => rw [hm] at hm'; cases hm'
  | recalled hs =>
    exact {
      marked := hmoved
      stopped := fun _ => cancel_session_state_ne
      terminated := fun _ ht => hended (by simp [hs, Stage.LookingAgain, Stage.position])
        (cancel_session_state_eq_terminated_iff.mp ht)
      outcome := by simp [Stage.outcome?] }
  | unresolved hs hr =>
    refine held_of_position_ne hmoved (by simp [Stage.position]) fun _ _ _ => ?_
    exact hresolve ⟨hs, _, by rw [hr]⟩
  | unstarted hs hr =>
    refine held_of_position_ne hmoved (by simp [Stage.position]) fun _ _ _ => ?_
    exact hstart ⟨_, hs, _, by rw [hr]⟩
  | ended hs ho =>
    refine held_of_position_ne hmoved (by simp [Stage.position]) fun o ho' hne => ?_
    obtain rfl := Option.some.inj ho'
    -- the run has been told what ended the formatter
    apply h.terminated (by simp [hs, Stage.position])
    rw [hc.session.state_of_outcome ho, Session.finalState_eq_terminated_iff, Ne,
      ← ofRun_eq_cancelled_iff]
    exact hne
  | close hs | finishHeld hs | finish hs | unwind hs =>
    refine held_of_position_ne hmoved (by simp [Stage.position]) fun o ho hne => ?_
    exact h.outcome o (by simpa [hs, Stage.outcome?] using ho) hne

/-! ## A task and those who take its place -/

/-- Where somebody is who puts something newer in the place of a task. -/
inductive Displacer where
  | arrived
  /-- It has set the mark and is about to cancel. -/
  | marked
  /-- True if it is what ended the formatter. -/
  | returned (ended : Bool)

/-- A task with everybody who puts something newer in its place. -/
structure Scene where
  task : Task
  displacers : List Displacer := []

namespace Scene

/-- A step of somebody who has to do with a task. -/
inductive Turn where
  /-- A caller runs the task, for the first time or again. -/
  | run
  /-- The run goes on; what the system answers depends on its surroundings and on the files. -/
  | advance (env : Surroundings) (files : FileTree)
  /-- A caller cancels the task without a mark. -/
  | cancel
  /-- Somebody new comes to put something newer in its place. -/
  | displace
  /-- Displacer `d` sets the mark. -/
  | mark (d : ℕ)
  /-- Displacer `d` cancels. -/
  | callOff (d : ℕ)
  | session (e : Session.Event)

instance : Inhabited Turn := ⟨.run⟩

/-- The scene behind a step; none if it is not possible now. -/
def next (s : Scene) : Turn → Option Scene
  | .run => some { s with task := s.task.begin.2 }
  | .advance env files => (s.task.advance env files).map fun (task, _) => { s with task }
  | .cancel => some { s with task := s.task.cancel.2 }
  | .displace => some { s with displacers := s.displacers ++ [.arrived] }
  | .mark d =>
    match s.displacers[d]? with
    | some .arrived =>
      some { task := s.task.markSuperseded, displacers := s.displacers.set d .marked }
    | _ => none
  | .callOff d =>
    match s.displacers[d]? with
    | some .marked =>
      some { task := s.task.cancel.2, displacers := s.displacers.set d (.returned s.task.cancel.1) }
    | _ => none
  | .session e => (s.task.sessionStep e).map fun task => { s with task }

/-- Somebody has set the mark and is about to cancel. -/
def Pending (s : Scene) : Prop := ∃ d : ℕ, s.displacers[d]? = some Displacer.marked

/-- One order of everything that is done to a new task. -/
abbrev Run (request : Request) (settings : Settings) (style : Style) :=
  Execution next { task := { request, settings, style } }

variable {s s' : Scene}

/-- A step of a scene, with what it finds. -/
inductive Steps (s : Scene) : Turn → Scene → Prop where
  | run : Steps s .run { s with task := s.task.begin.2 }
  | advance {env : Surroundings} {files files' : FileTree} {task : Task}
      (h : s.task.advance env files = some (task, files')) :
      Steps s (.advance env files) { s with task }
  | cancel : Steps s .cancel { s with task := s.task.cancel.2 }
  | displace : Steps s .displace { s with displacers := s.displacers ++ [.arrived] }
  | mark {d : ℕ} (hd : s.displacers[d]? = some .arrived) :
      Steps s (.mark d) { task := s.task.markSuperseded, displacers := s.displacers.set d .marked }
  | callOff {d : ℕ} (hd : s.displacers[d]? = some .marked) :
      Steps s (.callOff d)
        { task := s.task.cancel.2, displacers := s.displacers.set d (.returned s.task.cancel.1) }
  | session {e : Session.Event} {task : Task} (h : s.task.sessionStep e = some task) :
      Steps s (.session e) { s with task }

/-- Every turn that is possible is one of these steps. -/
lemma steps_of_next {a : Turn} (hnext : s.next a = some s') : Steps s a s' := by
  cases a with
  | run => cases hnext; exact .run
  | advance env files =>
    obtain ⟨⟨task, files'⟩, hadv, rfl⟩ := Option.map_eq_some_iff.mp hnext
    exact .advance hadv
  | cancel => cases hnext; exact .cancel
  | displace => cases hnext; exact .displace
  | mark d =>
    simp only [next] at hnext
    split at hnext <;> cases hnext
    exact .mark ‹_›
  | callOff d =>
    simp only [next] at hnext
    split at hnext <;> cases hnext
    exact .callOff ‹_›
  | session e =>
    obtain ⟨task, hstep, rfl⟩ := Option.map_eq_some_iff.mp hnext
    exact .session hstep

/-! ## Somebody is about to cancel -/

/-- The task of a scene is in order, and guarded by those who are about to cancel it. -/
structure Sound (s : Scene) : Prop where
  coherent : s.task.Coherent
  guarded : s.task.Guarded s.Pending

/-- In a new scene nobody is to be cancelled. -/
lemma sound_new (request : Request) (settings : Settings) (style : Style) :
    Sound { task := { request, settings, style } } :=
  ⟨coherent_new request settings style, guarded_new request settings style⟩

/-- Every step of a scene is a step on its task. -/
lemma Steps.moves {a : Turn} (h : Steps s a s') : Moves s'.Pending True s.task s'.task := by
  cases h with
  | run => exact .begins
  | advance hadv => exact .advances hadv
  | cancel => exact .cancels trivial
  | displace => exact .stays
  | @mark d hd =>
    refine .marks ⟨d, ?_⟩
    rw [List.getElem?_set_self (List.getElem?_eq_some_iff.mp hd).1]
  | callOff => exact .cancels trivial
  | session hstep => exact .happens hstep

/-- Nobody who is about to cancel goes away before the formatter is over. -/
lemma Steps.pending {a : Turn} (h : Steps s a s') (hp : s.Pending) :
    s'.Pending ∨ s'.task.session.state ≠ .started := by
  obtain ⟨d, hd⟩ := hp
  cases h with
  | run | advance | cancel | session => exact .inl ⟨d, hd⟩
  | displace =>
    exact .inl ⟨d, by rw [List.getElem?_append_left (List.getElem?_eq_some_iff.mp hd).1, hd]⟩
  | @mark d' hd' =>
    have hne : d' ≠ d := fun heq => by rw [heq, hd] at hd'; cases hd'
    exact .inl ⟨d, by rw [List.getElem?_set_ne hne, hd]⟩
  | callOff => exact .inr cancel_session_state_ne

/-- No turn breaks the order of a scene. -/
lemma Sound.next (h : s.Sound) {a : Turn} (hnext : s.next a = some s') : s'.Sound where
  coherent := h.coherent.moves (steps_of_next hnext).moves
  guarded := h.guarded.moves h.coherent (steps_of_next hnext).moves (steps_of_next hnext).pending

variable {request : Request} {settings : Settings} {style : Style}

/-- A scene is in order at every time of a run. -/
lemma sound_state (x : Run request settings style) {i : ℕ} (hi : i ≤ x.length) :
    (x.state i).Sound :=
  x.invariant (sound_new request settings style) (fun _ _ _ h hnext => h.next hnext) hi

/-! ## What is behind the second look -/

/-- The formatter has never run, or step `j` ends it by itself before the run has done what its
second look asks for. -/
def Run.ExcusedAt (x : Run request settings style) (j : ℕ) : Prop :=
  (∃ env files, x.label j = .advance env files ∧
    ((x.state j).task.FailsToResolve env files ∨ (x.state j).task.FailsToStart env)) ∨
  (x.label j = .session .conclude ∧ (x.state j).task.stage.LookingAgain ∧
    (x.state j).task.session.state = .started ∧
    (x.state (j + 1)).task.session.state = .terminated)

/-- There is a reason, before time `k`, why a marked run need not come to `cancelled`. -/
def Run.Excused (x : Run request settings style) (k : ℕ) : Prop := ∃ j, j < k ∧ x.ExcusedAt j

/-- An excuse stays one. -/
lemma Run.Excused.mono {x : Run request settings style} {i k : ℕ} (h : x.Excused i)
    (hik : i ≤ k) : x.Excused k := by
  obtain ⟨j, hji, hj⟩ := h
  exact ⟨j, by omega, hj⟩

/-- A formatter that is over while the run looks again was over before, or ends by itself just
now. -/
lemma Steps.terminated {a : Turn} (h : Steps s a s') (hl : s'.task.stage.LookingAgain)
    (ht : s'.task.session.state = .terminated) : s.task.stage.LookingAgain ∧
      (s.task.session.state = .terminated ∨
        a = .session .conclude ∧ s.task.session.state = .started) := by
  cases h with
  | run =>
    by_cases hi : s.task.state = .idle
    · simp [begin_of_idle hi, Stage.LookingAgain, Stage.position] at hl
    · simp only [begin_of_not_idle hi] at hl ht
      exact ⟨hl, .inl ht⟩
  | advance hadv =>
    cases advances_of_advance hadv with
    | started hst hr =>
      -- what has just been started is running
      cases Session.startResult hr
      cases ht
    | seen hst => exact ⟨by simp [hst, Stage.LookingAgain, Stage.position], .inl ht⟩
    | _ => simp [Stage.LookingAgain, Stage.position] at hl
  | cancel | callOff => exact ⟨hl, .inl (cancel_session_state_eq_terminated_iff.mp ht)⟩
  | displace | mark => exact ⟨hl, .inl ht⟩
  | session hstep =>
    obtain ⟨session, hsession, rfl⟩ := sessionStep_eq_some hstep
    cases Session.happens_of_step hsession with
    | conclude _ _ hs => exact ⟨hl, .inr ⟨rfl, hs⟩⟩
    | _ => exact ⟨hl, .inl ht⟩

/-- A formatter that has ended by itself before the second look is an excuse. -/
lemma excused_of_terminated (x : Run request settings style) {k : ℕ} (hk : k ≤ x.length)
    (hl : (x.state k).task.stage.LookingAgain)
    (ht : (x.state k).task.session.state = .terminated) : x.Excused k := by
  let P := fun i =>
    (x.state i).task.stage.LookingAgain ∧ (x.state i).task.session.state = .terminated
  have h₀ : ¬ P 0 := by simp [P, x.state_zero]
  obtain ⟨j, -, hjk, hj, hl', ht'⟩ :=
    Execution.exists_step (P := P) (Nat.zero_le k) h₀ ⟨hl, ht⟩
  have hstep := steps_of_next (x.next_state j (by omega))
  rcases hstep.terminated hl' ht' with ⟨hlj, htj | ⟨ha, hs⟩⟩
  · exact absurd ⟨hlj, htj⟩ hj
  · exact ⟨j, hjk, .inr ⟨ha, hlj, hs, ht'⟩⟩

/-! ## The handshake -/

/-- A marked task is held from step to step, with the excuses that there are by then. -/
lemma held_next {x : Run request settings style} {k : ℕ} (hk : k < x.length)
    (h : (x.state k).task.Held (x.Excused k)) :
    (x.state (k + 1)).task.Held (x.Excused (k + 1)) := by
  have hstep := steps_of_next (x.next_state k hk)
  have hcoherent := (sound_state x (i := k) (by omega)).coherent
  have h' : (x.state k).task.Held (x.Excused (k + 1)) := h.mono fun he => he.mono (by omega)
  have hnow : x.ExcusedAt k → x.Excused (k + 1) := fun he => ⟨k, by omega, he⟩
  have hended := excused_of_terminated x (k := k) (by omega)
  generalize x.state (k + 1) = s', ha : x.label k = a at hstep ⊢
  cases hstep with
  | run => exact h'.begin
  | advance hadv =>
    exact h'.advance hcoherent (fun hf => hnow (.inl ⟨_, _, ha, .inl hf⟩))
      (fun hf => hnow (.inl ⟨_, _, ha, .inr hf⟩)) (fun hl ht => (hended hl ht).mono (by omega)) hadv
  | cancel | callOff => exact h'.cancel
  | displace => exact h'
  | mark => exact h'.markSuperseded
  | session hsession => exact h'.sessionStep hsession

/-- **No displacement is lost.** In every order of the steps of a run and of everybody who puts
something newer in the place of its task: as long as the task is marked and its formatter running,
somebody is about to cancel it; and if it was marked before the run looked for the second time, then
behind that look the formatter is not running, and a run that does not come to `cancelled` could not
settle its option file or start the formatter, or the formatter had ended by itself by then. -/
theorem supersession_not_lost (x : Run request settings style) :
    (∀ i, i ≤ x.length → (x.state i).task.superseded = true →
      (x.state i).task.session.state = .started →
        (x.state i).Pending ∨ (x.state i).task.stage.LookingAgain) ∧
    (∀ i k, i ≤ k → k ≤ x.length → (x.state i).task.superseded = true →
      (x.state i).task.stage.BeforeSecondLook → (x.state k).task.stage.PastRecall →
        (x.state k).task.session.state ≠ .started ∧
        ∀ o, (x.state k).task.stage.outcome? = some o → o ≠ .cancelled → x.Excused k) := by
  constructor
  · intro i hi hm hs
    exact (sound_state x hi).guarded hm hs
  · intro i k hik hk hm hb hp
    have hheld : (x.state k).task.Held (x.Excused k) := by
      clear hp
      induction k, hik using Nat.le_induction with
      | base => exact held_of_beforeSecondLook hm hb
      | succ k hik ih => exact held_next (by omega) (ih (by omega))
    refine ⟨?_, hheld.outcome⟩
    by_cases h7 : (x.state k).task.stage.position = 7
    · exact hheld.stopped h7
    · have hlate : 8 ≤ (x.state k).task.stage.position := by
        unfold Stage.PastRecall at hp
        omega
      exact (sound_state x hk).coherent.settled hlate

/-- A run whose task is marked behind the first look and cancelled before the formatter is there. -/
def calledOffTooEarly : Run { fileName := Path.ofString "a.c", text := "" } namedOptions {} :=
  Execution.ofLabels next _
    [.run, .advance launchesAll optionFileOnly, .advance launchesAll optionFileOnly, .displace,
      .mark 0, .advance launchesAll optionFileOnly, .callOff 0,
      .advance launchesAll optionFileOnly, .advance launchesAll optionFileOnly,
      .advance launchesAll optionFileOnly]
    rfl

/-- A cancellation that comes too early to do anything is made good by the second look. -/
theorem supersession_not_lost_calledOffTooEarly :
    (calledOffTooEarly.state 7).displacers = [.returned false] ∧
      (calledOffTooEarly.state 8).task.session.state = .started ∧
      (calledOffTooEarly.state 8).task.stage.LookingAgain ∧
      (calledOffTooEarly.state 10).task.session.state ≠ .started := by
  have h := supersession_not_lost calledOffTooEarly
  have hnone : ¬ (calledOffTooEarly.state 8).Pending := by
    rintro ⟨d, hd⟩
    obtain ⟨hlt, heq⟩ := List.getElem?_eq_some_iff.mp hd
    obtain rfl : d = 0 := Nat.lt_one_iff.mp hlt
    cases heq
  exact ⟨rfl, rfl, (h.1 8 (by decide) rfl rfl).resolve_left hnone,
    (h.2 5 10 (by decide) (by decide) rfl (show 3 ≤ 5 by decide) (show 7 ≤ 7 by decide)).1⟩

end Scene

end Task

end SourceFormat.Formatting
