import Mathlib
import SourceFormat.Proofs.Subprocess.SessionTurns

/-!
# A session has one outcome

A cancellation, the end of the process, the end of its output and the deadline race for a session.
`outcome_authoritative` says who has won, in every order of their steps:

* at most one cancellation is told that it ended the session;
* an outcome, once there, stays; it is `cancelled` if and only if a cancellation was told so, and
  the state that callers see has been the matching final one since before the outcome;
* a run is reported as too long only by the limit of its own request;
* a started session can always still come to an outcome, by steps of its supervisor and its process
  alone.

The last point is possibility and not fairness: nobody promises here that a process ends.
-/

namespace SourceFormat.Subprocess

namespace Session

/-- One order of everything that is done to a new session. -/
abbrev Run := Execution next {}

/-- Step `i` is a cancellation that is told that it ended the session. -/
def Run.CancelsAt (x : Run) (i : ℕ) : Prop :=
  i < x.length ∧ x.label i = .cancel ∧ (x.state i).cancel.1 = true

/-- Step `i` starts the session for the request. -/
def Run.StartsAt (x : Run) (r : Request) (i : ℕ) : Prop :=
  i < x.length ∧ ∃ launch, x.label i = .start r launch ∧ ((x.state i).start r launch).1 = .ok ()

/-- The state that a session with this outcome is left in. -/
def finalState : Except RunError Outcome → SessionState
  | .ok .cancelled => .cancelled
  | _ => .terminated

/-- The supervisor, the process and the clock can bring the session to an outcome. -/
def CanEnd (s : Session) : Prop :=
  ∃ s', Relation.ReflTransGen (fun s s' => ∃ e, s.step e = some s') s s' ∧ s'.outcome?.isSome

variable {s s' : Session}

/-- A session is in order at every time of a run. -/
lemma coherent_state (x : Run) {i : ℕ} (hi : i ≤ x.length) : (x.state i).Coherent :=
  x.invariant coherent_default (fun _ _ _ h hnext => h.next hnext) hi

/-! ## Who ended the session -/

/-- Only a cancellation that is told so makes a session a cancelled one. -/
lemma cancel_of_state_eq_cancelled {a : Turn} (hnext : s.next a = some s')
    (hs : s.state ≠ .cancelled) (hs' : s'.state = .cancelled) :
    a = .cancel ∧ s.cancel.1 = true := by
  cases a with
  | start r launch =>
    obtain ⟨answer, -, hr⟩ := startResult_of_next hnext
    cases hr with
    | empty | again => exact absurd hs' hs
    | unlaunched | launched => cases hs'
  | cancel =>
    by_cases ht : s.state = .started
    · simp [cancel_of_started ht]
    · obtain rfl := Option.some.inj hnext
      rw [cancel_of_not_started ht] at hs'
      exact absurd hs' hs
  | event e =>
    cases happens_of_step hnext with
    | conclude => cases hs'
    | _ => exact absurd hs' hs

/-- A cancellation that is told so finds the session started and leaves it cancelled. -/
lemma Run.CancelsAt.states {x : Run} {i : ℕ} (h : x.CancelsAt i) :
    (x.state i).state = .started ∧ (x.state (i + 1)).state = .cancelled := by
  obtain ⟨hi, hlabel, htrue⟩ := h
  have hs : (x.state i).state = .started := by
    by_contra hne
    simp [cancel_of_not_started hne] at htrue
  have hnext := x.next_state i hi
  rw [hlabel] at hnext
  simp only [next, cancel_of_started hs, Option.some.injEq] at hnext
  exact ⟨hs, by rw [← hnext]⟩

/-- A final state stays. -/
lemma state_eq_of_le (x : Run) {i k : ℕ} (hs : (x.state i).state.isTerminal = true) (hik : i ≤ k)
    (hk : k ≤ x.length) : (x.state k).state = (x.state i).state :=
  x.invariant_from (P := fun s => s.state = (x.state i).state)
    (fun _ _ _ h hnext => (state_eq_of_isTerminal (h ▸ hs) hnext).trans h) rfl hik hk

/-- A session is cancelled if a cancellation was told that it ended it. -/
lemma state_eq_cancelled_iff (x : Run) {i : ℕ} (hi : i ≤ x.length) :
    (x.state i).state = .cancelled ↔ ∃ j, j < i ∧ x.CancelsAt j := by
  constructor
  · intro hs
    have h₀ : ¬ (x.state 0).state = .cancelled := by simp [x.state_zero]
    obtain ⟨j, -, hji, hj, hj'⟩ :=
      Execution.exists_step (P := fun i => (x.state i).state = .cancelled) (Nat.zero_le i) h₀ hs
    have hnext := x.next_state j (by omega)
    exact ⟨j, hji, by omega, cancel_of_state_eq_cancelled hnext hj hj'⟩
  · rintro ⟨j, hji, hj⟩
    have hs := hj.states.2
    rw [state_eq_of_le x (i := j + 1) (by simp [hs, SessionState.isTerminal]) hji hi, hs]

/-! ## What callers who wait are told -/

/-- The state of a session with an outcome is the final state for it. -/
lemma Coherent.state_of_outcome (h : s.Coherent) {o : Except RunError Outcome}
    (ho : s.outcome? = some o) : s.state = finalState o := by
  have hunder := h.under
  unfold outcome? at ho
  split at ho
  · rename_i hs
    cases ho
    rw [hs] at hunder
    exact hunder
  · rename_i d hs
    cases ho
    rw [hs] at hunder
    cases d <;> exact hunder
  · cases ho

/-- A final state is terminal. -/
lemma finalState_isTerminal (o : Except RunError Outcome) : (finalState o).isTerminal = true := by
  unfold finalState
  split <;> rfl

/-- The state is cancelled if the outcome is. -/
lemma finalState_eq_cancelled_iff (o : Except RunError Outcome) :
    finalState o = .cancelled ↔ o = .ok .cancelled := by
  unfold finalState
  split <;> simp_all

/-- The state is terminated by every outcome but a cancellation. -/
lemma finalState_eq_terminated_iff (o : Except RunError Outcome) :
    finalState o = .terminated ↔ o ≠ .ok .cancelled := by
  unfold finalState
  split <;> simp_all

/-- An outcome stays as it is, whatever is done to the session. -/
lemma Coherent.outcome_next (h : s.Coherent) {o : Except RunError Outcome}
    (ho : s.outcome? = some o) {a : Turn} (hnext : s.next a = some s') : s'.outcome? = some o := by
  have hterminal : s.state.isTerminal = true := by
    rw [h.state_of_outcome ho]
    exact finalState_isTerminal o
  cases a with
  | start r launch =>
    obtain ⟨answer, -, hr⟩ := startResult_of_next hnext
    cases hr with
    | empty | again => exact ho
    | unlaunched hc | launched hc => simp [hc, SessionState.isTerminal] at hterminal
  | cancel =>
    obtain rfl := Option.some.inj hnext
    have hne : s.state ≠ .started := fun ht => by simp [ht, SessionState.isTerminal] at hterminal
    rw [cancel_of_not_started hne]
    exact ho
  | event e =>
    cases happens_of_step hnext with
    | signal | processEnds | deadlinePasses => exact ho
    | killCancelled _ hs | abandon _ hs | killExpired _ hs | expire _ hs | noticeEnd _ hs
    | reapCancelled _ hs | reapExpired _ hs | collect _ hs | conclude _ hs | concludeLate _ hs
    | deliver _ hs => simp [outcome?, hs] at ho

/-! ## Limits -/

/-- A session gets its request from the start that launches it. -/
lemma start_of_request {r : Request} {a : Turn} (hnext : s.next a = some s')
    (hs : s.request ≠ some r) (hs' : s'.request = some r) :
    ∃ launch, a = .start r launch ∧ (s.start r launch).1 = .ok () := by
  cases a with
  | start r' launch =>
    obtain ⟨answer, hstart, hr⟩ := startResult_of_next hnext
    cases hr with
    | empty | again | unlaunched => exact absurd hs' hs
    | launched =>
      obtain rfl := Option.some.inj hs'
      exact ⟨launch, rfl, by rw [hstart]⟩
  | cancel =>
    obtain rfl := Option.some.inj hnext
    by_cases ht : s.state = .started
    · rw [cancel_of_started ht] at hs'
      exact absurd hs' hs
    · rw [cancel_of_not_started ht] at hs'
      exact absurd hs' hs
  | event e =>
    cases happens_of_step hnext <;> exact absurd hs' hs

/-- A session with a request was started for it. -/
lemma exists_start_of_request (x : Run) {i : ℕ} (hi : i ≤ x.length) {r : Request}
    (hr : (x.state i).request = some r) : ∃ j, j < i ∧ x.StartsAt r j := by
  have h₀ : ¬ (x.state 0).request = some r := by simp [x.state_zero]
  obtain ⟨j, -, hji, hj, hj'⟩ :=
    Execution.exists_step (P := fun i => (x.state i).request = some r) (Nat.zero_le i) h₀ hr
  exact ⟨j, hji, by omega, start_of_request (x.next_state j (by omega)) hj hj'⟩

/-- A run that is reported as too long had this limit. -/
lemma Coherent.limit_of_outcome (h : s.Coherent) {d : Duration}
    (ho : s.outcome? = some (.error (.timedOut d))) : s.limit = some d := by
  apply h.timedOut
  unfold outcome? at ho
  split at ho
  · cases ho
  · rename_i delivery hs
    rw [hs]
    cases delivery with
    | exited r => cases ho
    | failed e => cases ho; rfl
  · cases ho

/-! ## An outcome is always within reach -/

/-- A session can end if it can behind a step. -/
lemma CanEnd.of_step {e : Event} (hstep : s.step e = some s') (h : s'.CanEnd) : s.CanEnd := by
  obtain ⟨t, hst, ht⟩ := h
  exact ⟨t, .head ⟨e, hstep⟩ hst, ht⟩

/-- Where the supervisor has returned, the session has ended. -/
lemma canEnd_of_returned {delivered : Option Delivery} (hs : s.supervisor = .returned delivered) :
    s.CanEnd :=
  ⟨s, .refl, by cases delivered <;> simp [outcome?, hs]⟩

/-- Where the supervisor delivers, the session can end. -/
lemma canEnd_of_delivering {d : Delivery} (hs : s.supervisor = .delivering d) : s.CanEnd :=
  .of_step (e := .deliver) (by simp only [step, hs]; rfl) (canEnd_of_returned rfl)

/-- Where the supervisor concludes, the session can end. -/
lemma canEnd_of_concluding {d : Delivery} (hs : s.supervisor = .concluding d) : s.CanEnd := by
  by_cases ht : s.state = .started
  · exact .of_step (e := .conclude) (by simp only [step, hs, finish, ht, if_true]; rfl)
      (canEnd_of_delivering rfl)
  · exact .of_step (e := .conclude) (by simp only [step, hs, finish, ht, if_false]; rfl)
      (canEnd_of_returned rfl)

/-- Where the supervisor waits for the exchange, the session can end. -/
lemma canEnd_of_draining (hs : s.supervisor = .draining) : s.CanEnd :=
  .of_step (e := .collect (.unknown .notFound)) (by simp only [step, hs, if_true]; rfl)
    (canEnd_of_concluding rfl)

/-- Once the process has ended, the supervisor gets on by itself. -/
lemma canEnd_of_ended (hl : s.life = .ended)
    (hs : s.supervisor = .watching ∨ ∃ b, s.supervisor = .killing b) : s.CanEnd := by
  rcases hs with hs | ⟨b, hs⟩
  · exact .of_step (e := .noticeEnd) (by simp only [step, hl, hs, and_self, if_true]; rfl)
      (canEnd_of_draining rfl)
  · cases b with
    | false =>
      exact .of_step (e := .reap) (by simp only [step, hl, hs, if_true]; rfl)
        (canEnd_of_returned rfl)
    | true =>
      exact .of_step (e := .reap) (by simp only [step, hl, hs, if_true]; rfl)
        (canEnd_of_concluding rfl)

/-- Where the process has to be reaped, the session can end. -/
lemma canEnd_of_unreaped (hl : s.life = .running ∨ s.life = .ended)
    (hs : s.supervisor = .watching ∨ ∃ b, s.supervisor = .killing b) : s.CanEnd := by
  rcases hl with hl | hl
  · have hstep : s.step .processEnds = some { s with life := .ended } := by
      simp only [step, hl, if_true]
    exact .of_step hstep (canEnd_of_ended rfl hs)
  · exact canEnd_of_ended hl hs

/-- Every session that was started can end. -/
lemma Coherent.canEnd (h : s.Coherent) (hs : s.supervisor ≠ .absent) : s.CanEnd := by
  have hsees := h.sees
  cases hplace : s.supervisor with
  | absent => exact absurd hplace hs
  | watching =>
    rw [hplace] at hsees
    exact canEnd_of_unreaped hsees (.inl hplace)
  | killing expired =>
    rw [hplace] at hsees
    exact canEnd_of_unreaped hsees (.inr ⟨expired, hplace⟩)
  | draining => exact canEnd_of_draining hplace
  | concluding d => exact canEnd_of_concluding hplace
  | delivering d => exact canEnd_of_delivering hplace
  | returned delivered => exact canEnd_of_returned hplace

/-! ## The race has one result -/

/-- **One authoritative outcome.** In every order of starts, cancellations and steps of the
supervisor, the process and the clock: at most one cancellation is told that it ended the session;
an outcome stays, goes with the final state that callers see, and is `cancelled` exactly if a
cancellation was told so; only the limit of the session's own request is ever reported as passed;
and a started session can still come to an outcome. -/
theorem outcome_authoritative (x : Run) :
    (∀ i j, x.CancelsAt i → x.CancelsAt j → i = j) ∧
    (∀ i o, i ≤ x.length → (x.state i).outcome? = some o → ∀ k, i ≤ k → k ≤ x.length →
      (x.state k).outcome? = some o ∧ (x.state k).state = finalState o ∧
        (o = .ok .cancelled ↔ ∃ j, j < k ∧ x.CancelsAt j)) ∧
    (∀ i d, i ≤ x.length → (x.state i).outcome? = some (.error (.timedOut d)) →
      ∃ j r, j < i ∧ x.StartsAt r j ∧ r.timeout = some d) ∧
    (∀ i, i ≤ x.length → (x.state i).supervisor ≠ .absent → (x.state i).CanEnd) := by
  refine ⟨?_, ?_, ?_, ?_⟩
  · intro i j hi hj
    -- the earlier one leaves a final state, which the later one would have to find started
    have hlt : ∀ {i j : ℕ}, x.CancelsAt i → x.CancelsAt j → ¬ i < j := by
      intro i j hi hj hij
      have hs := hi.states.2
      have hs' := state_eq_of_le x (i := i + 1) (by simp [hs, SessionState.isTerminal]) hij
        (le_of_lt hj.1)
      rw [hs, hj.states.1] at hs'
      cases hs'
    have := hlt hi hj
    have := hlt hj hi
    omega
  · intro i o hi ho k hik hk
    have hk' : (x.state k).Coherent ∧ (x.state k).outcome? = some o :=
      x.invariant_from (P := fun s => s.Coherent ∧ s.outcome? = some o)
        (fun _ _ _ h hnext => ⟨h.1.next hnext, h.1.outcome_next h.2 hnext⟩)
        ⟨coherent_state x hi, ho⟩ hik hk
    have hstate := hk'.1.state_of_outcome hk'.2
    refine ⟨hk'.2, hstate, ?_⟩
    rw [← finalState_eq_cancelled_iff, ← hstate]
    exact state_eq_cancelled_iff x hk
  · intro i d hi ho
    have hlimit := (coherent_state x hi).limit_of_outcome ho
    obtain ⟨r, hr, hd⟩ := Option.bind_eq_some_iff.mp hlimit
    obtain ⟨j, hji, hj⟩ := exists_start_of_request x hi hr
    exact ⟨j, r, hji, hj, hd⟩
  · intro i hi hs
    exact (coherent_state x hi).canEnd hs

/-- A run in which the cancellation comes while the process is being killed at its deadline. -/
def cancelledAtDeadline : Run :=
  Execution.ofLabels next {}
    [.start { executable := ⟨[0x2F]⟩, timeout := some ⟨1⟩ } (.ok ()), .event .deadlinePasses,
      .event .noticeDeadline, .cancel, .cancel, .event .processEnds, .event .reap,
      .event .conclude, .event .signal]
    rfl

/-- A cancellation that comes while the process is being killed at its deadline decides the
outcome. -/
theorem outcome_authoritative_cancelledAtDeadline :
    cancelledAtDeadline.CancelsAt 3 ∧ ¬ cancelledAtDeadline.CancelsAt 4 ∧
      (cancelledAtDeadline.state 8).outcome? = some (.ok .cancelled) ∧
      (cancelledAtDeadline.state 9).outcome? = some (.ok .cancelled) ∧
      (cancelledAtDeadline.state 9).state = .cancelled := by
  have h := outcome_authoritative cancelledAtDeadline
  have hcancels : cancelledAtDeadline.CancelsAt 3 := ⟨by decide, rfl, rfl⟩
  have houtcome : (cancelledAtDeadline.state 8).outcome? = some (.ok .cancelled) := rfl
  have hkept := h.2.1 8 _ (by decide) houtcome 9 (by decide) (by decide)
  exact ⟨hcancels, fun h4 => absurd (h.1 3 4 hcancels h4) (by decide), houtcome, hkept.1,
    hkept.2.1⟩

end Session

end SourceFormat.Subprocess
