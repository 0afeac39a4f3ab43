import Mathlib
import SourceFormat.Subprocess.Session
import SourceFormat.Proofs.Execution

/-!
# What can happen to a session

A session is acted on by callers, who start and cancel it, by its supervisor, and by the process and
the clock.  A `Turn` is one act of any of them, with the system's answer in it, and `next` is the
session behind it.

* `cancel_of_started`, `cancel_of_not_started`: a cancellation either ends the session or changes
  nothing at all.
* `StartResult`, `startResult`: a start is refused without a trace, fails to launch, or launches.
* `Happens`, `happens_of_step`: every step of the other parties, each with what allows it.
* `Coherent`, `Coherent.next`: the state, the permit, the process and the whereabouts of the
  supervisor fit together, whatever happens.  The invariants that follow are all read off it.
-/

namespace SourceFormat.Subprocess

namespace Session

/-- What is done to a session. -/
inductive Turn where
  /-- A caller starts it; `launch` is the system's answer. -/
  | start (r : Request) (launch : Except SystemError Unit)
  /-- A caller cancels it. -/
  | cancel
  /-- The supervisor, the process or the clock takes a step. -/
  | event (e : Event)

instance : Inhabited Turn := ⟨.cancel⟩

/-- The session behind a turn; none if it is not possible now. -/
def next (s : Session) : Turn → Option Session
  | .start r launch => some (s.start r launch).2
  | .cancel => some s.cancel.2
  | .event e => s.step e

variable {s s' : Session}

/-! ## Callers -/

/-- A cancellation ends a session that was started, and leaves a signal. -/
lemma cancel_of_started (h : s.state = .started) :
    s.cancel = (true, { s with state := .cancelled, signalling := true }) := by
  simp [cancel, finish, h]

/-- A cancellation does nothing to any other session. -/
lemma cancel_of_not_started (h : s.state ≠ .started) : s.cancel = (false, s) := by
  simp [cancel, finish, h]

@[simp] lemma cancel_supervisor (s : Session) : s.cancel.2.supervisor = s.supervisor := by
  by_cases h : s.state = .started
  · rw [cancel_of_started h]
  · rw [cancel_of_not_started h]

/-- What becomes of a start. -/
inductive StartResult (s : Session) (r : Request) : Except RunError Unit → Session → Prop where
  | empty (h : r.validate = .error .emptyExecutable) :
      StartResult s r (.error .emptyExecutable) s
  | again (h : s.state ≠ .created) : StartResult s r (.error .alreadyStarted) s
  | unlaunched (h : s.state = .created) (source : SystemError) :
      StartResult s r (.error (.spawn r.executable source)) { s with state := .terminated }
  | launched (h : s.state = .created) :
      StartResult s r (.ok ()) { s with
        state := .started, request := some r, life := .running, supervisor := .watching }

/-- Every start comes to one of these. -/
lemma startResult {r : Request} {launch : Except SystemError Unit} {answer : Except RunError Unit}
    (h : s.start r launch = (answer, s')) : StartResult s r answer s' := by
  unfold start at h
  split at h
  · rename_i e hv
    cases h
    unfold Request.validate at hv
    split at hv <;> cases hv
    exact .empty (by simp [Request.validate, *])
  · split at h
    · cases h
      exact .again ‹_›
    · rename_i hs
      split at h <;> cases h
      · exact .unlaunched (not_not.mp hs) _
      · exact .launched (not_not.mp hs)

/-- A start as a turn, with the answer that its caller gets. -/
lemma startResult_of_next {r : Request} {launch : Except SystemError Unit}
    (h : s.next (.start r launch) = some s') :
    ∃ answer, s.start r launch = (answer, s') ∧ StartResult s r answer s' := by
  obtain rfl := Option.some.inj h
  exact ⟨(s.start r launch).1, rfl, startResult rfl⟩

/-- What a start that fails leaves behind is not a running session. -/
lemma start_error_state_ne {r : Request} {launch : Except SystemError Unit} {e : RunError}
    (hs : s.state ≠ .started) (hr : s.start r launch = (.error e, s')) : s'.state ≠ .started := by
  cases startResult hr with
  | empty | again => exact hs
  | unlaunched => simp

/-! ## The supervisor, the process and the clock -/

/-- A step that is not a caller's, with what allows it. -/
inductive Happens (s : Session) : Event → Session → Prop where
  | signal (h : s.signalling = true) :
      Happens s .signal { s with signalling := false, permit := true }
  | processEnds (h : s.life = .running) : Happens s .processEnds { s with life := .ended }
  | deadlinePasses (hl : s.limit.isSome) (hs : s.supervisor ≠ .absent) :
      Happens s .deadlinePasses { s with expired := true }
  /-- The process is killed for a cancellation. -/
  | killCancelled (hp : s.permit = true) (hs : s.supervisor = .watching) :
      Happens s .noticeCancel { s with permit := false, supervisor := .killing false }
  /-- The output is given up for a cancellation. -/
  | abandon (hp : s.permit = true) (hs : s.supervisor = .draining) :
      Happens s .noticeCancel { s with permit := false, supervisor := .returned none }
  /-- The process is killed at the deadline. -/
  | killExpired (he : s.expired = true) (hs : s.supervisor = .watching) :
      Happens s .noticeDeadline { s with supervisor := .killing true }
  /-- The output is given up at the deadline. -/
  | expire (he : s.expired = true) (hs : s.supervisor = .draining) :
      Happens s .noticeDeadline { s with supervisor := .concluding s.timeoutDelivery }
  | noticeEnd (hl : s.life = .ended) (hs : s.supervisor = .watching) :
      Happens s .noticeEnd { s with life := .reaped, supervisor := .draining }
  | reapCancelled (hl : s.life = .ended) (hs : s.supervisor = .killing false) :
      Happens s .reap { s with life := .reaped, supervisor := .returned none }
  | reapExpired (hl : s.life = .ended) (hs : s.supervisor = .killing true) :
      Happens s .reap { s with life := .reaped, supervisor := .concluding s.timeoutDelivery }
  | collect (found : Collected) (hs : s.supervisor = .draining) :
      Happens s (.collect found) { s with supervisor := .concluding found.delivery }
  /-- The supervisor is the first to end the session. -/
  | conclude (d : Delivery) (hs : s.supervisor = .concluding d) (ht : s.state = .started) :
      Happens s .conclude { s with state := .terminated, supervisor := .delivering d }
  /-- Somebody else was first. -/
  | concludeLate (d : Delivery) (hs : s.supervisor = .concluding d) (ht : s.state ≠ .started) :
      Happens s .conclude { s with supervisor := .returned none }
  | deliver (d : Delivery) (hs : s.supervisor = .delivering d) :
      Happens s .deliver { s with supervisor := .returned (some d) }

/-- Every step that is possible does one of these things. -/
lemma happens_of_step {e : Event} (h : s.step e = some s') : Happens s e s' := by
  cases e with
  | signal =>
    simp only [step, Option.ite_none_right_eq_some, Option.some.injEq] at h
    obtain ⟨hs, rfl⟩ := h
    exact .signal hs
  | processEnds =>
    simp only [step, Option.ite_none_right_eq_some, Option.some.injEq] at h
    obtain ⟨hl, rfl⟩ := h
    exact .processEnds hl
  | deadlinePasses =>
    simp only [step, Option.ite_none_right_eq_some, Option.some.injEq] at h
    obtain ⟨hl, rfl⟩ := h
    simp only [Bool.and_eq_true, decide_eq_true_eq] at hl
    exact .deadlinePasses hl.1 hl.2
  | noticeCancel =>
    simp only [step, Option.ite_none_right_eq_some] at h
    obtain ⟨hp, h⟩ := h
    split at h <;> cases h
    · exact .killCancelled hp ‹_›
    · exact .abandon hp ‹_›
  | noticeDeadline =>
    simp only [step, Option.ite_none_right_eq_some] at h
    obtain ⟨he, h⟩ := h
    split at h <;> cases h
    · exact .killExpired he ‹_›
    · exact .expire he ‹_›
  | noticeEnd =>
    simp only [step, Option.ite_none_right_eq_some, Option.some.injEq] at h
    obtain ⟨⟨hl, hs⟩, rfl⟩ := h
    exact .noticeEnd hl hs
  | reap =>
    simp only [step, Option.ite_none_right_eq_some] at h
    obtain ⟨hl, h⟩ := h
    split at h <;> cases h
    · exact .reapCancelled hl ‹_›
    · exact .reapExpired hl ‹_›
  | collect found =>
    simp only [step, Option.ite_none_right_eq_some, Option.some.injEq] at h
    obtain ⟨hs, rfl⟩ := h
    exact .collect found hs
  | conclude =>
    simp only [step] at h
    split at h
    · rename_i d hs
      by_cases ht : s.state = .started
      · simp only [finish, ht, if_true, Option.some.injEq] at h
        exact h ▸ .conclude d hs ht
      · simp only [finish, ht, if_false, Option.some.injEq] at h
        exact h ▸ .concludeLate d hs ht
    · cases h
  | deliver =>
    simp only [step] at h
    split at h <;> cases h
    exact .deliver _ ‹_›

end Session

/-! ## Coherence

The states that callers see, the places that only the supervisor knows and the life of the process
agree at every time.  `Supervisor.Under` and `Supervisor.Sees` are the two tables. -/

/-- Which state a session can be in when its supervisor is at some place. -/
def Supervisor.Under : Supervisor → SessionState → Prop
  | .absent, state => state = .created ∨ state = .terminated
  | .watching, state | .killing true, state | .draining, state | .concluding _, state =>
    state = .started ∨ state = .cancelled
  | .killing false, state | .returned none, state => state = .cancelled
  | .delivering _, state | .returned (some _), state => state = .terminated

/-- How far the process has come when its supervisor is at some place. -/
def Supervisor.Sees : Supervisor → Life → Prop
  | .absent, life => life = .unborn
  | .watching, life | .killing _, life => life = .running ∨ life = .ended
  | _, life => life = .reaped

/-- What the supervisor has at hand to deliver, or has delivered. -/
def Supervisor.delivery? : Supervisor → Option Delivery
  | .concluding d | .delivering d | .returned (some d) => some d
  | _ => none

/-- A collected end is never a passed deadline. -/
lemma Collected.delivery_ne_timedOut (found : Collected) (d : Duration) :
    found.delivery ≠ .failed (.timedOut d) := by
  cases found <;> simp [Collected.delivery]

namespace Session

variable {s s' : Session}

/-- The parts of a session fit together. -/
structure Coherent (s : Session) : Prop where
  under : s.supervisor.Under s.state
  sees : s.supervisor.Sees s.life
  /-- A session that was never started is untouched. -/
  created : s.state = .created → s = {}
  /-- The permit, and the intention to leave one, come from a cancellation that ended the session.
  -/
  cancelled_of_summons : s.signalling = true ∨ s.permit = true → s.state = .cancelled
  /-- A supervisor that waits in a cancelled session still finds the permit. -/
  summons : s.state = .cancelled → s.supervisor = .watching ∨ s.supervisor = .draining →
    s.signalling = true ∨ s.permit = true
  /-- Only a limited request expires. -/
  limited : s.expired = true ∨ s.supervisor = .killing true → s.limit.isSome
  /-- A passed deadline is the one of the request. -/
  timedOut : ∀ d, s.supervisor.delivery? = some (.failed (.timedOut d)) → s.limit = some d

/-- A new session is in order. -/
lemma coherent_default : Coherent {} := by
  constructor <;> simp [Supervisor.Under, Supervisor.Sees, Supervisor.delivery?]

/-! ### Callers keep it -/

/-- A start keeps a session in order. -/
lemma Coherent.start (h : s.Coherent) {r : Request} {launch : Except SystemError Unit}
    {answer : Except RunError Unit} (hr : s.start r launch = (answer, s')) : s'.Coherent := by
  cases startResult hr with
  | empty | again => exact h
  | unlaunched hc | launched hc =>
    obtain rfl := h.created hc
    constructor <;> simp [Supervisor.Under, Supervisor.Sees, Supervisor.delivery?]

/-- A cancellation keeps a session in order. -/
lemma Coherent.cancel (h : s.Coherent) : s.cancel.2.Coherent := by
  by_cases hs : s.state = .started
  · rw [cancel_of_started hs]
    have hunder := h.under
    exact {
      under := by
        rw [hs] at hunder
        unfold Supervisor.Under at hunder ⊢
        split at hunder <;> simp_all
      sees := h.sees
      created := by simp
      cancelled_of_summons := by simp
      summons := by simp
      limited := h.limited
      timedOut := h.timedOut }
  · rw [cancel_of_not_started hs]
    exact h

/-! ### The other parties keep it

One lemma for each part, by the steps that there are. -/

/-- No step has the supervisor at a place that the state does not allow. -/
private lemma Coherent.under_step (h : s.Coherent) {e : Event} (hstep : s.step e = some s') :
    s'.supervisor.Under s'.state := by
  have hunder := h.under
  have hsummons := h.cancelled_of_summons
  cases happens_of_step hstep with
  | signal | processEnds | deadlinePasses => exact hunder
  | killCancelled hp hs | abandon hp hs => exact hsummons (.inr hp)
  | killExpired _ hs | expire _ hs | noticeEnd _ hs | collect _ hs | reapExpired _ hs
  | reapCancelled _ hs | deliver _ hs =>
    rw [hs] at hunder
    exact hunder
  | conclude d hs ht => rfl
  | concludeLate d hs ht =>
    rw [hs] at hunder
    exact hunder.resolve_left ht

/-- No step has the supervisor at a place that the process has not come to. -/
private lemma Coherent.sees_step (h : s.Coherent) {e : Event} (hstep : s.step e = some s') :
    s'.supervisor.Sees s'.life := by
  have hsees := h.sees
  cases happens_of_step hstep with
  | signal | deadlinePasses => exact hsees
  | processEnds hl =>
    rw [hl] at hsees
    unfold Supervisor.Sees at hsees ⊢
    split at hsees <;> simp_all
  | noticeEnd | reapCancelled | reapExpired => rfl
  | killCancelled _ hs | abandon _ hs | killExpired _ hs | expire _ hs | collect _ hs
  | conclude _ hs | concludeLate _ hs | deliver _ hs =>
    rw [hs] at hsees
    exact hsees

/-- No step leads back to the state of a new session. -/
private lemma Coherent.created_step (h : s.Coherent) {e : Event} (hstep : s.step e = some s') :
    s'.state = .created → s' = {} := by
  intro hc
  have hs : s = {} := by
    apply h.created
    cases happens_of_step hstep <;> simp_all
  subst hs
  cases happens_of_step hstep <;> simp_all

/-- A summons is on its way to a cancelled session only. -/
private lemma Coherent.cancelled_of_summons_step (h : s.Coherent) {e : Event}
    (hstep : s.step e = some s') :
    s'.signalling = true ∨ s'.permit = true → s'.state = .cancelled := by
  intro hs'
  have hsummons := h.cancelled_of_summons
  cases happens_of_step hstep with
  | signal hs => exact hsummons (.inl hs)
  | killCancelled hp | abandon hp => exact hsummons (.inr hp)
  | conclude _ _ ht =>
    have hcancelled := hsummons hs'
    rw [ht] at hcancelled
    cases hcancelled
  | processEnds | deadlinePasses | killExpired | expire | noticeEnd | reapCancelled | reapExpired
  | collect | concludeLate | deliver => exact hsummons hs'

/-- No step loses a summons as long as the supervisor waits. -/
private lemma Coherent.summons_step (h : s.Coherent) {e : Event} (hstep : s.step e = some s') :
    s'.state = .cancelled → s'.supervisor = .watching ∨ s'.supervisor = .draining →
      s'.signalling = true ∨ s'.permit = true := by
  intro hc hw
  have hsummons := h.summons
  cases happens_of_step hstep with
  | signal => exact .inr rfl
  | processEnds | deadlinePasses => exact hsummons hc hw
  | noticeEnd _ hs => exact hsummons hc (.inl hs)
  | killCancelled | abandon | killExpired | expire | reapCancelled | reapExpired | collect
  | conclude | concludeLate | deliver => simp at hw

/-- No step has a limit pass that was not set. -/
private lemma Coherent.limited_step (h : s.Coherent) {e : Event} (hstep : s.step e = some s') :
    s'.expired = true ∨ s'.supervisor = .killing true → s'.limit.isSome := by
  intro he
  have hlimited := h.limited
  cases happens_of_step hstep with
  | signal | processEnds => exact hlimited he
  | deadlinePasses hl => exact hl
  | killExpired hx => exact hlimited (.inl hx)
  | killCancelled | abandon | expire | noticeEnd | reapCancelled | reapExpired | collect
  | conclude | concludeLate | deliver => exact hlimited (.inl (he.resolve_right (by simp)))

/-- A supervisor that delivers a passed deadline delivers the one of the request. -/
lemma timeoutDelivery_eq {d : Duration} (hl : s.limit.isSome)
    (hd : s.timeoutDelivery = .failed (.timedOut d)) : s.limit = some d := by
  obtain ⟨limit, hlimit⟩ := Option.isSome_iff_exists.mp hl
  simp only [timeoutDelivery, hlimit, Option.getD_some, Delivery.failed.injEq,
    RunError.timedOut.injEq] at hd
  rw [hlimit, hd]

/-- What is reported to have passed is the limit that was set. -/
private lemma Coherent.timedOut_step (h : s.Coherent) {e : Event} (hstep : s.step e = some s') :
    ∀ d, s'.supervisor.delivery? = some (.failed (.timedOut d)) → s'.limit = some d := by
  intro d hd
  have htimedOut := h.timedOut d
  cases happens_of_step hstep with
  | signal | processEnds | deadlinePasses => exact htimedOut hd
  | expire hx => exact timeoutDelivery_eq (h.limited (.inl hx)) (Option.some.inj hd)
  | reapExpired _ hs => exact timeoutDelivery_eq (h.limited (.inr hs)) (Option.some.inj hd)
  | collect found => exact absurd (Option.some.inj hd) (found.delivery_ne_timedOut d)
  | conclude d' hs | deliver d' hs => exact htimedOut (by rw [hs]; exact hd)
  | killCancelled | abandon | killExpired | noticeEnd | reapCancelled | concludeLate => cases hd

/-- No step takes a session out of order. -/
lemma Coherent.step (h : s.Coherent) {e : Event} (hstep : s.step e = some s') : s'.Coherent where
  under := h.under_step hstep
  sees := h.sees_step hstep
  created := h.created_step hstep
  cancelled_of_summons := h.cancelled_of_summons_step hstep
  summons := h.summons_step hstep
  limited := h.limited_step hstep
  timedOut := h.timedOut_step hstep

/-- Whatever is done to a coherent session leaves it coherent. -/
theorem Coherent.next (h : s.Coherent) {a : Turn} (hnext : s.next a = some s') :
    s'.Coherent := by
  cases a with
  | start r launch =>
    obtain ⟨answer, hr, -⟩ := startResult_of_next hnext
    exact h.start hr
  | cancel => exact Option.some.inj hnext ▸ h.cancel
  | event e => exact h.step hnext

/-! ## Final states -/

/-- A final state is never left. -/
theorem state_eq_of_isTerminal (hs : s.state.isTerminal = true) {a : Turn}
    (hnext : s.next a = some s') : s'.state = s.state := by
  cases a with
  | start r launch =>
    obtain ⟨answer, -, hr⟩ := startResult_of_next hnext
    cases hr with
    | empty | again => rfl
    | unlaunched hc | launched hc => simp [hc, SessionState.isTerminal] at hs
  | cancel =>
    obtain rfl := Option.some.inj hnext
    have hne : s.state ≠ .started := fun ht => by simp [ht, SessionState.isTerminal] at hs
    rw [cancel_of_not_started hne]
  | event e =>
    cases happens_of_step hnext with
    | conclude _ _ ht => simp [ht, SessionState.isTerminal] at hs
    | _ => rfl

/-- Nothing that happens to a session starts it. -/
lemma started_of_step {e : Event} (hstep : s.step e = some s') (hs : s'.state = .started) :
    s.state = .started := by
  cases happens_of_step hstep with
  | conclude => cases hs
  | _ => exact hs

/-! ## Launched sessions -/

/-- The session was launched, for this request. -/
structure Launched (s : Session) (r : Request) : Prop where
  state : s.state ≠ .created
  supervisor : s.supervisor ≠ .absent
  request : s.request = some r

/-- A new session whose start succeeds. -/
lemma launched_start {r : Request} {launch : Except SystemError Unit}
    (h : (start {} r launch).1 = .ok ()) : (start {} r launch).2.Launched r := by
  cases hr : start {} r launch with
  | mk answer session =>
    rw [hr] at h
    cases h
    cases startResult hr
    exact ⟨by simp, by simp, rfl⟩

/-- A session that was launched stays so, for the same request. -/
lemma Launched.next {r : Request} (h : s.Launched r) {a : Turn} (hnext : s.next a = some s') :
    s'.Launched r := by
  cases a with
  | start r' launch =>
    obtain ⟨answer, -, hresult⟩ := startResult_of_next hnext
    cases hresult with
    | empty | again => exact h
    | unlaunched hc | launched hc => exact absurd hc h.state
  | cancel =>
    obtain rfl := Option.some.inj hnext
    by_cases ht : s.state = .started
    · rw [cancel_of_started ht]
      exact ⟨by simp, h.supervisor, h.request⟩
    · rw [cancel_of_not_started ht]
      exact h
  | event e =>
    cases happens_of_step hnext with
    | signal | processEnds | deadlinePasses => exact ⟨h.state, h.supervisor, h.request⟩
    | conclude => exact ⟨by simp, by simp, h.request⟩
    | _ => exact ⟨h.state, by simp, h.request⟩

end Session

end SourceFormat.Subprocess
