import Mathlib
import SourceFormat.Formatting.Task
import SourceFormat.Proofs.Subprocess.SessionOutcome

/-!
# What can happen to a task

The run of a task goes through its stages in one direction, and callers and the session act on the
task at any time in between.

* `Advances`, `advances_of_advance`: every step of the run, with what it finds.
* `Coherent`: the stage, the state and the session of a task fit together.  Before the formatter is
  started its session is untouched, and behind the wait for it the session is over.
* `Heeded`: a task that nobody has marked was not cancelled either.  It holds where tasks are
  cancelled by displacement only, as a service does.
* `Guarded`: a marked task with a running formatter is about to be cancelled, either by somebody
  else (`pending`) or by its own run, which looks at the mark again.
-/

namespace SourceFormat.Formatting

open Subprocess (Session)

namespace Task

/-! ## Stages in their order -/

/-- How far a run has come. -/
def Stage.position : Stage → ℕ
  | unrun => 0
  | resolving => 1
  | checking _ => 2
  | entering _ => 3
  | starting _ => 4
  | guarding _ => 5
  | recalling _ => 6
  | awaiting _ => 7
  | closing _ _ => 8
  | finishing _ _ => 9
  | unwinding _ _ => 10
  | returned _ => 11

/-- The run has not looked at the mark for the second time. -/
def Stage.BeforeSecondLook (s : Stage) : Prop := s.position ≤ 5

/-- The run has started the formatter, and has not yet done what the second look asks for. -/
def Stage.LookingAgain (s : Stage) : Prop := 5 ≤ s.position ∧ s.position ≤ 6

/-- The run has done what the second look asks for, or has come to its end without one. -/
def Stage.PastRecall (s : Stage) : Prop := 7 ≤ s.position

/-- The outcome that a run has come to, as soon as it is settled. -/
def Stage.outcome? : Stage → Option Outcome
  | closing _ o | finishing _ o | unwinding _ o | returned o => some o
  | _ => none

variable {t t' : Task} {env : Surroundings} {files files' : FileTree}

/-- A task has an outcome if its run has returned it. -/
lemma outcome?_eq_some_iff {o : Outcome} : t.outcome? = some o ↔ t.stage = .returned o := by
  unfold outcome?
  split <;> simp_all

/-- A run is cancelled if its session is. -/
lemma ofRun_eq_cancelled_iff (r : Except Subprocess.RunError Subprocess.Outcome) :
    Outcome.ofRun r = .cancelled ↔ r = .ok .cancelled := by
  unfold Outcome.ofRun
  split
  · split <;> simp
  · simp
  · simp

@[simp] lemma cancel_state : t.cancel.2.state = t.state := rfl

@[simp] lemma cancel_session : t.cancel.2.session = t.session.cancel.2 := rfl

/-- Behind a cancellation no formatter is running. -/
lemma cancel_session_state_ne : t.cancel.2.session.state ≠ .started := by
  by_cases hs : t.session.state = .started
  · simp [Session.cancel_of_started hs]
  · simp [Session.cancel_of_not_started hs, hs]

/-- A cancellation never looks like an end by itself. -/
lemma cancel_session_state_eq_terminated_iff :
    t.cancel.2.session.state = .terminated ↔ t.session.state = .terminated := by
  by_cases hs : t.session.state = .started
  · simp [Session.cancel_of_started hs, hs]
  · simp [Session.cancel_of_not_started hs]

/-! ## Steps of the run -/

/-- The process that the run starts. -/
def process (t : Task) (config : Config.Resolved) : Subprocess.Request :=
  t.request.process t.settings config.location.path

/-- A step of the run, with what it finds. -/
inductive Advances (env : Surroundings) (files : FileTree) (t : Task) : Task → FileTree → Prop where
  | resolved {files' : FileTree} {config : Config.Resolved} (hs : t.stage = .resolving)
      (hr : Config.resolve files env.temporary t.request.projectRoot t.settings t.style =
        (files', .ok config)) :
      Advances env files t { t with stage := .checking config } files'
  | unresolved {files' : FileTree} {e : Config.GenerateError} (hs : t.stage = .resolving)
      (hr : Config.resolve files env.temporary t.request.projectRoot t.settings t.style =
        (files', .error e)) :
      Advances env files t
        { t with stage := .finishing none (.failed (.general e.message)) } files'
  | giveUp {config : Config.Resolved} (hs : t.stage = .checking config)
      (hm : t.superseded = true) :
      Advances env files t { t with stage := .finishing (some config) .cancelled } files
  | goOn {config : Config.Resolved} (hs : t.stage = .checking config)
      (hm : t.superseded = false) :
      Advances env files t { t with stage := .entering config } files
  | enter {config : Config.Resolved} (hs : t.stage = .entering config) :
      Advances env files t { t with state := .formatting, stage := .starting config } files
  | started {config : Config.Resolved} {session : Session} (hs : t.stage = .starting config)
      (hr : t.session.start (t.process config) (env.launch (t.process config)) =
        (.ok (), session)) :
      Advances env files t { t with session, stage := .guarding config } files
  | unstarted {config : Config.Resolved} {session : Session} {e : Subprocess.RunError}
      (hs : t.stage = .starting config)
      (hr : t.session.start (t.process config) (env.launch (t.process config)) =
        (.error e, session)) :
      Advances env files t
        { t with session, stage := .finishing (some config) (.failed (.general e.message)) } files
  | seen {config : Config.Resolved} (hs : t.stage = .guarding config)
      (hm : t.superseded = true) :
      Advances env files t { t with stage := .recalling config } files
  | unseen {config : Config.Resolved} (hs : t.stage = .guarding config)
      (hm : t.superseded = false) :
      Advances env files t { t with stage := .awaiting config } files
  | recalled {config : Config.Resolved} (hs : t.stage = .recalling config) :
      Advances env files t { t.cancel.2 with stage := .awaiting config } files
  | ended {config : Config.Resolved} {o : Except Subprocess.RunError Subprocess.Outcome}
      (hs : t.stage = .awaiting config) (ho : t.session.outcome? = some o) :
      Advances env files t { t with stage := .closing config (Outcome.ofRun o) } files
  | close {config : Config.Resolved} {o : Outcome} (hs : t.stage = .closing config o) :
      Advances env files t { t with stage := .finishing none o } (Config.release files config)
  | finishHeld {config : Config.Resolved} {o : Outcome}
      (hs : t.stage = .finishing (some config) o) :
      Advances env files t { t with state := o.state, stage := .unwinding config o } files
  | finish {o : Outcome} (hs : t.stage = .finishing none o) :
      Advances env files t { t with state := o.state, stage := .returned o } files
  | unwind {config : Config.Resolved} {o : Outcome} (hs : t.stage = .unwinding config o) :
      Advances env files t { t with stage := .returned o } (Config.release files config)

/-- Every step of the run is one of these. -/
lemma advances_of_advance (h : t.advance env files = some (t', files')) :
    Advances env files t t' files' := by
  unfold advance at h
  split at h
  · cases h
  · rename_i hs
    split at h <;> cases h
    · exact .resolved hs ‹_›
    · exact .unresolved hs ‹_›
  · rename_i config hs
    split at h <;> cases h
    · exact .giveUp hs ‹_›
    · exact .goOn hs (by simpa using ‹¬ t.superseded = true›)
  · rename_i config hs
    cases h
    exact .enter hs
  · rename_i config hs
    dsimp only at h
    split at h <;> cases h
    · exact .started hs ‹_›
    · exact .unstarted hs ‹_›
  · rename_i config hs
    split at h <;> cases h
    · exact .seen hs ‹_›
    · exact .unseen hs (by simpa using ‹¬ t.superseded = true›)
  · rename_i config hs
    cases h
    exact .recalled hs
  · rename_i config hs
    obtain ⟨o, ho, heq⟩ := Option.map_eq_some_iff.mp h
    cases heq
    exact .ended hs ho
  · rename_i config o hs
    cases h
    exact .close hs
  · rename_i held o hs
    cases h
    cases held with
    | none => exact .finish hs
    | some config => exact .finishHeld hs
  · rename_i config o hs
    cases h
    exact .unwind hs
  · cases h

/-- A run only ever goes forward. -/
lemma position_lt_of_advance (h : t.advance env files = some (t', files')) :
    t.stage.position < t'.stage.position := by
  cases advances_of_advance h <;> simp_all [Stage.position]

/-! ## The parts of a task fit together -/

/-- The stage, the state and the session of a task agree. -/
structure Coherent (t : Task) : Prop where
  session : t.session.Coherent
  idle : t.state = .idle ↔ t.stage = .unrun
  /-- Up to its start the session is untouched. -/
  fresh : t.stage.position ≤ 4 → t.session = {}
  /-- Behind the wait for it the session is over. -/
  settled : 8 ≤ t.stage.position → t.session.state ≠ .started

/-- A new task is in order. -/
lemma coherent_new (request : Request) (settings : Settings) (style : Style) :
    Coherent { request, settings, style } where
  session := Session.coherent_default
  idle := by simp
  fresh _ := rfl
  settled _ := by simp

/-- A task that is idle begins its run. -/
lemma begin_of_idle (h : t.state = .idle) :
    t.begin = (true, { t with state := .resolvingConfig, stage := .resolving }) := by
  simp [begin, h]

/-- A task that is not idle does not begin a run. -/
lemma begin_of_not_idle (h : t.state ≠ .idle) : t.begin = (false, t) := by
  simp [begin, h]

/-- Beginning a run keeps a task in order. -/
lemma Coherent.begin (h : t.Coherent) : t.begin.2.Coherent := by
  by_cases hi : t.state = .idle
  · rw [begin_of_idle hi]
    have hfresh := h.fresh (by simp [h.idle.mp hi, Stage.position])
    exact {
      session := h.session
      idle := by simp
      fresh := fun _ => hfresh
      settled := by simp [Stage.position] }
  · rw [begin_of_not_idle hi]
    exact h

/-- A mark keeps a task in order. -/
lemma Coherent.markSuperseded (h : t.Coherent) : t.markSuperseded.Coherent :=
  { h with }

/-- A cancellation keeps a task in order. -/
lemma Coherent.cancel (h : t.Coherent) : t.cancel.2.Coherent where
  session := h.session.cancel
  idle := h.idle
  fresh hp := by
    have hs := h.fresh hp
    rw [cancel_session, Session.cancel_of_not_started (by simp [hs])]
    exact hs
  settled _ := cancel_session_state_ne

/-- A step of its session changes nothing else of a task. -/
lemma sessionStep_eq_some {e : Session.Event} (h : t.sessionStep e = some t') :
    ∃ session, t.session.step e = some session ∧ t' = { t with session } := by
  obtain ⟨session, hstep, rfl⟩ := Option.map_eq_some_iff.mp h
  exact ⟨session, hstep, rfl⟩

/-- Nothing happens to a session that was never started. -/
lemma step_default (e : Session.Event) : Session.step {} e = none := by
  cases e <;> rfl

/-- A step of its session keeps a task in order. -/
lemma Coherent.sessionStep (h : t.Coherent) {e : Session.Event}
    (hstep : t.sessionStep e = some t') : t'.Coherent := by
  obtain ⟨session, hsession, rfl⟩ := sessionStep_eq_some hstep
  exact {
    session := h.session.step hsession
    idle := h.idle
    fresh := fun hp => by
      rw [h.fresh hp, step_default] at hsession
      cases hsession
    settled := fun hp hs => by
      have hne := h.settled hp
      cases Session.happens_of_step hsession with
      | conclude => cases hs
      | _ => exact hne hs }

/-- A step of its run keeps a task in order. -/
lemma Coherent.advance (h : t.Coherent) (hadv : t.advance env files = some (t', files')) :
    t'.Coherent := by
  have hidle : t.stage ≠ .unrun → t.state ≠ .idle := fun hne hi => hne (h.idle.mp hi)
  -- only the start and the recall touch the session; it is new before, and settled at the end
  cases advances_of_advance hadv with
  | resolved hs | unresolved hs | giveUp hs | goOn hs =>
    have hfresh := h.fresh (by simp [hs, Stage.position])
    exact {
      session := h.session
      idle := by simp [hidle (by simp [hs])]
      fresh := fun _ => hfresh
      settled := by simp [hfresh] }
  | enter hs =>
    have hfresh := h.fresh (by simp [hs, Stage.position])
    exact {
      session := h.session
      idle := by simp
      fresh := fun _ => hfresh
      settled := by simp [hfresh] }
  | started hs hr =>
    exact {
      session := h.session.start hr
      idle := by simp [hidle (by simp [hs])]
      fresh := by simp [Stage.position]
      settled := by simp [Stage.position] }
  | unstarted hs hr =>
    have hfresh := h.fresh (by simp [hs, Stage.position])
    exact {
      session := h.session.start hr
      idle := by simp [hidle (by simp [hs])]
      fresh := by simp [Stage.position]
      settled := fun _ => Session.start_error_state_ne (by simp [hfresh]) hr }
  | seen hs | unseen hs =>
    exact {
      session := h.session
      idle := by simp [hidle (by simp [hs])]
      fresh := by simp [Stage.position]
      settled := by simp [Stage.position] }
  | recalled hs =>
    exact {
      session := h.session.cancel
      idle := by simp [hidle (by simp [hs])]
      fresh := by simp [Stage.position]
      settled := by simp [Stage.position] }
  | ended hs ho =>
    exact {
      session := h.session
      idle := by simp [hidle (by simp [hs])]
      fresh := by simp [Stage.position]
      settled := fun _ => by
        rw [h.session.state_of_outcome ho]
        unfold Session.finalState
        split <;> simp }
  | close hs | unwind hs =>
    exact {
      session := h.session
      idle := by simp [hidle (by simp [hs])]
      fresh := by simp [Stage.position]
      settled := fun _ => h.settled (by simp [hs, Stage.position]) }
  | finishHeld hs | finish hs =>
    exact {
      session := h.session
      idle := by rename_i o; cases o <;> simp [Outcome.state]
      fresh := by simp [Stage.position]
      settled := fun _ => h.settled (by simp [hs, Stage.position]) }

/-! ## What anybody does to a task -/

/-- A step of anybody, as far as one task is concerned.  Others set its mark only if `marking`, and
cancel it only if `recalling`. -/
inductive Moves (marking recalling : Prop) (t : Task) : Task → Prop where
  | stays : Moves marking recalling t t
  | begins : Moves marking recalling t t.begin.2
  | advances {env : Surroundings} {files files' : FileTree} {t' : Task}
      (h : t.advance env files = some (t', files')) : Moves marking recalling t t'
  | marks (h : marking) : Moves marking recalling t t.markSuperseded
  | cancels (h : recalling) : Moves marking recalling t t.cancel.2
  | happens {e : Session.Event} {t' : Task} (h : t.sessionStep e = some t') :
      Moves marking recalling t t'

variable {marking recalling : Prop}

/-- Every move keeps a task in order. -/
lemma Coherent.moves (hc : t.Coherent) (h : Moves marking recalling t t') : t'.Coherent := by
  cases h with
  | stays => exact hc
  | begins => exact hc.begin
  | advances hadv => exact hc.advance hadv
  | marks => exact hc.markSuperseded
  | cancels => exact hc.cancel
  | happens hstep => exact hc.sessionStep hstep

@[simp] lemma begin_superseded : t.begin.2.superseded = t.superseded := by
  unfold begin
  split <;> rfl

@[simp] lemma begin_request : t.begin.2.request = t.request := by
  unfold begin
  split <;> rfl

/-- No step of the run sets or clears the mark. -/
lemma superseded_of_advance (h : t.advance env files = some (t', files')) :
    t'.superseded = t.superseded := by
  cases advances_of_advance h <;> rfl

/-- The mark stays. -/
lemma superseded_moves (h : Moves marking recalling t t') (hm : t.superseded = true) :
    t'.superseded = true := by
  cases h with
  | stays | cancels => exact hm
  | begins => rw [begin_superseded, hm]
  | advances hadv => rw [superseded_of_advance hadv, hm]
  | marks => rfl
  | happens hstep =>
    obtain ⟨session, -, rfl⟩ := sessionStep_eq_some hstep
    exact hm

/-- A mark that is there was there before, or somebody was about to set it. -/
lemma superseded_of_moves (h : Moves marking recalling t t') (hm : t'.superseded = true) :
    t.superseded = true ∨ marking := by
  cases h with
  | stays | cancels => exact .inl hm
  | begins => exact .inl (by rwa [begin_superseded] at hm)
  | advances hadv => exact .inl (by rwa [superseded_of_advance hadv] at hm)
  | marks h => exact .inr h
  | happens hstep =>
    obtain ⟨session, -, rfl⟩ := sessionStep_eq_some hstep
    exact .inl hm

/-- No move changes the request of a task. -/
lemma request_moves (h : Moves marking recalling t t') : t'.request = t.request := by
  cases h with
  | stays | cancels | marks => rfl
  | begins => exact begin_request
  | advances hadv => cases advances_of_advance hadv <;> rfl
  | happens hstep =>
    obtain ⟨session, -, rfl⟩ := sessionStep_eq_some hstep
    rfl

/-- Beginning a run changes neither settings nor style. -/
lemma begin_preferences :
    t.begin.2.settings = t.settings ∧ t.begin.2.style = t.style := by
  unfold begin
  split <;> exact ⟨rfl, rfl⟩

/-- No move changes settings or style. -/
lemma preferences_moves (h : Moves marking recalling t t') :
    t'.settings = t.settings ∧ t'.style = t.style := by
  cases h with
  | stays | cancels | marks => exact ⟨rfl, rfl⟩
  | begins => exact begin_preferences
  | advances hadv => cases advances_of_advance hadv <;> exact ⟨rfl, rfl⟩
  | happens hstep =>
    obtain ⟨session, -, rfl⟩ := sessionStep_eq_some hstep
    exact ⟨rfl, rfl⟩

/-! ## The mark and the cancellation -/

/-- A marked task with a running formatter is about to be cancelled, by somebody else (`pending`) or
by its own run. -/
def Guarded (t : Task) (pending : Prop) : Prop :=
  t.superseded = true → t.session.state = .started → pending ∨ t.stage.LookingAgain

variable {p q : Prop}

/-- A new task is guarded, since nothing is running. -/
lemma guarded_new (request : Request) (settings : Settings) (style : Style) :
    Guarded { request, settings, style } p :=
  fun hm => by cases hm

/-- A task whose formatter does not run is guarded. -/
lemma guarded_of_state_ne (hs : t.session.state ≠ .started) : t.Guarded p :=
  fun _ hs' => absurd hs' hs

/-- A task that somebody is about to cancel is guarded. -/
lemma guarded_of_pending (hp : p) : t.Guarded p :=
  fun _ _ => .inl hp

/-- Beginning a run starts no formatter, so a task stays guarded. -/
lemma Guarded.begin (hc : t.Coherent) (h : t.Guarded p) : t.begin.2.Guarded p := by
  by_cases hi : t.state = .idle
  · rw [begin_of_idle hi]
    have hfresh := hc.fresh (by simp [hc.idle.mp hi, Stage.position])
    exact guarded_of_state_ne (by simp [hfresh])
  · rw [begin_of_not_idle hi]
    exact h

/-- A step of its session starts no formatter, so a task stays guarded. -/
lemma Guarded.sessionStep (h : t.Guarded p) {e : Session.Event}
    (hstep : t.sessionStep e = some t') : t'.Guarded p := by
  obtain ⟨session, hsession, rfl⟩ := sessionStep_eq_some hstep
  intro hm hs
  refine h hm ?_
  cases Session.happens_of_step hsession with
  | conclude => cases hs
  | _ => exact hs

/-- What carries the handshake: the mark is looked at behind the start, and a run that has seen it
cancels before it does anything else. -/
lemma Guarded.advance (hc : t.Coherent) (h : t.Guarded p)
    (hadv : t.advance env files = some (t', files')) : t'.Guarded p := by
  intro hm hs
  have hpast : ¬ t.stage.LookingAgain → t.superseded = true → t.session.state = .started → p :=
    fun hne hm hs => (h hm hs).resolve_right hne
  cases advances_of_advance hadv with
  | resolved hst | unresolved hst | giveUp hst | goOn hst | enter hst =>
    simp [hc.fresh (by simp [hst, Stage.position])] at hs
  | started | seen => exact .inr (by simp [Stage.LookingAgain, Stage.position])
  | unstarted hst hr =>
    have hfresh := hc.fresh (by simp [hst, Stage.position])
    exact absurd hs (Session.start_error_state_ne (by simp [hfresh]) hr)
  | unseen _ hm' => rw [hm'] at hm; cases hm
  | recalled => exact absurd hs cancel_session_state_ne
  | ended hst | close hst | finishHeld hst | finish hst | unwind hst =>
    exact .inl (hpast (by simp [hst, Stage.LookingAgain, Stage.position]) hm hs)

/-- Who is about to cancel may change with a step, as long as nobody leaves a running formatter. -/
lemma Guarded.moves (hc : t.Coherent) (h : t.Guarded p) (hmoves : Moves q recalling t t')
    (hpq : p → q ∨ t'.session.state ≠ .started) : t'.Guarded q := by
  have hq : t'.Guarded p → t'.Guarded q := fun h' hm hs =>
    (h' hm hs).imp_left fun hp => (hpq hp).resolve_right (not_not.mpr hs)
  cases hmoves with
  | stays => exact hq h
  | begins => exact hq (h.begin hc)
  | advances hadv => exact hq (h.advance hc hadv)
  | marks hmark => exact guarded_of_pending hmark
  | cancels => exact guarded_of_state_ne cancel_session_state_ne
  | happens hstep => exact hq (h.sessionStep hstep)

/-- Without a mark the task was not cancelled. -/
structure Unharmed (t : Task) : Prop where
  session : t.session.state ≠ .cancelled
  stage : ∀ config, t.stage ≠ .recalling config
  outcome : t.stage.outcome? ≠ some .cancelled

/-- A task that nobody has marked was not cancelled either. -/
def Heeded (t : Task) : Prop := t.superseded = false → t.Unharmed

/-- A new task has not been harmed. -/
lemma heeded_new (request : Request) (settings : Settings) (style : Style) :
    Heeded { request, settings, style } :=
  fun _ => ⟨by simp, by simp, by simp [Stage.outcome?]⟩

/-- A task that is marked may have been cancelled. -/
lemma heeded_of_superseded (hm : t.superseded = true) : t.Heeded :=
  fun hm' => by rw [hm] at hm'; cases hm'

/-- Beginning a run does no harm. -/
lemma Unharmed.begin (h : t.Unharmed) : t.begin.2.Unharmed := by
  by_cases hi : t.state = .idle
  · rw [begin_of_idle hi]
    exact ⟨h.session, by simp, by simp [Stage.outcome?]⟩
  · rw [begin_of_not_idle hi]
    exact h

/-- A step of its session does no harm. -/
lemma Unharmed.sessionStep (h : t.Unharmed) {e : Session.Event}
    (hstep : t.sessionStep e = some t') : t'.Unharmed := by
  obtain ⟨session, hsession, rfl⟩ := sessionStep_eq_some hstep
  refine ⟨?_, h.stage, h.outcome⟩
  cases Session.happens_of_step hsession with
  | conclude => simp
  | _ => exact h.session

/-- A step of its own run does no harm, as long as there is no mark. -/
lemma Unharmed.advance (hc : t.Coherent) (h : t.Unharmed) (hm : t.superseded = false)
    (hadv : t.advance env files = some (t', files')) : t'.Unharmed := by
  cases advances_of_advance hadv with
  | resolved | goOn | enter | unseen => exact ⟨h.session, by simp, by simp [Stage.outcome?]⟩
  | unresolved => exact ⟨h.session, by simp, by simp [Stage.outcome?]⟩
  | giveUp _ hm' | seen _ hm' => rw [hm] at hm'; cases hm'
  | started _ hr =>
    cases Session.startResult hr with
    | launched => exact ⟨by simp, by simp, by simp [Stage.outcome?]⟩
  | unstarted _ hr =>
    refine ⟨?_, by simp, by simp [Stage.outcome?]⟩
    cases Session.startResult hr with
    | empty | again => exact h.session
    | unlaunched => simp
  | recalled hs => exact absurd hs (h.stage _)
  | ended hs ho =>
    refine ⟨h.session, by simp, ?_⟩
    have hstate := hc.session.state_of_outcome ho
    rw [Stage.outcome?, Ne, Option.some.injEq, ofRun_eq_cancelled_iff,
      ← Session.finalState_eq_cancelled_iff, ← hstate]
    exact h.session
  | close hs | finishHeld hs | finish hs | unwind hs =>
    have ho := h.outcome
    rw [hs] at ho
    exact ⟨h.session, by simp, ho⟩

/-- Cancelled by those only who have set the mark before, a task without a mark is not cancelled. -/
lemma Heeded.moves (hc : t.Coherent) (h : t.Heeded) (hmoves : Moves marking recalling t t')
    (hr : recalling → t.superseded = true) : t'.Heeded := by
  by_cases hm : t.superseded = true
  · exact heeded_of_superseded (superseded_moves hmoves hm)
  · have hm : t.superseded = false := by simpa using hm
    intro _
    cases hmoves with
    | stays => exact h hm
    | begins => exact (h hm).begin
    | advances hadv => exact (h hm).advance hc hm hadv
    | marks => exact { h hm with }
    | cancels hrecalling => rw [hr hrecalling] at hm; cases hm
    | happens hstep => exact (h hm).sessionStep hstep

/-! ## A small system -/

/-- Settings that name an option file. -/
def namedOptions : Settings := { config := some (Path.ofString "/c") }

/-- A tree with that option file. -/
def optionFileOnly : FileTree := { nodes := [([[0x63]], .file [] false)] }

/-- A system that launches every process. -/
def launchesAll : Surroundings := { temporary := Path.ofString "/", launch := fun _ => .ok () }

end Task

end SourceFormat.Formatting
