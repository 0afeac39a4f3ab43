import Mathlib
import SourceFormat.Proofs.Subprocess.SessionOutcome

/-!
# A cancellation is not lost, and no process survives its session

A caller who cancels moves the state first and leaves the permit second; the supervisor may be at
any place meanwhile, and it may take the end of the process although the permit is there.

* `cancellation_not_lost`: once a cancellation has answered true, a supervisor that waits has the
  permit before it, and one that no longer waits is on a way on which nothing is delivered.
* The way is short (`GivesUp`): whatever else happens, the supervisor and the process take at most
  three more steps, and they cannot stop before the supervisor has returned.
* Whoever waits for the outcome is answered only when the end of the process has been taken note of.

The supervisor gives up for one reason only: the session is cancelled, and no wait is left in which
it could choose (`Abandoned`).  `remaining` counts what is left to do there.
-/

namespace SourceFormat.Subprocess

/-- Whether a turn is a step of the supervisor or of the process, and not one of a caller or of the
clock. -/
def Session.Turn.isWork : Session.Turn → Bool
  | .start _ _ | .cancel | .event .signal | .event .deadlinePasses => false
  | .event _ => true

/-- Whether the supervisor is in one of its two waits. -/
def Supervisor.Waits (p : Supervisor) : Prop :=
  p = .watching ∨ p = .draining

/-- Whether the supervisor delivers or has delivered. -/
def Supervisor.Delivers (p : Supervisor) : Prop :=
  ∃ d, p = .delivering d ∨ p = .returned (some d)

namespace Session

variable {s s' : Session}

/-- How many steps the supervisor and the process take in an order of turns. -/
def workOf (y : Execution next s) : ℕ :=
  ((Finset.range y.length).filter fun i => (y.label i).isWork = true).card

/-- The supervisor is on a way on which it returns without delivering anything: in every
continuation it delivers nothing, at most three steps of it and of the process are left, and where
neither of them can take a step it has returned. -/
def GivesUp (s : Session) : Prop :=
  ∀ y : Execution next s,
    (∀ i, i ≤ y.length → ¬ (y.state i).supervisor.Delivers) ∧ workOf y ≤ 3 ∧
      ((∀ a : Turn, a.isWork = true → (y.state y.length).next a = none) →
        (y.state y.length).supervisor = .returned none)

/-- A cancellation of the run answered true before time `i`: it moved the state, and then left the
permit. -/
def Run.CancelledBefore (x : Run) (i : ℕ) : Prop :=
  ∃ j k, j < k ∧ k < i ∧ x.CancelsAt j ∧ x.label k = .event .signal

/-- Step `i` of the run takes note of the end of the process: the supervisor has waited for it, or
has killed it and waited until it was gone. -/
def Run.ReapsAt (x : Run) (i : ℕ) : Prop :=
  i < x.length ∧ (x.label i = .event .noticeEnd ∨ x.label i = .event .reap)

/-! ## Giving up -/

/-- The session is cancelled and the supervisor is behind its last wait. -/
structure Abandoned (s : Session) : Prop where
  coherent : s.Coherent
  cancelled : s.state = .cancelled
  behind : ¬ s.supervisor.Waits

/-- How many steps are left to the supervisor and the process behind the last wait. -/
def remaining (s : Session) : ℕ :=
  match s.supervisor, s.life with
  | .killing true, .running => 3
  | .killing true, _ | .killing false, .running => 2
  | .killing false, _ | .concluding _, _ => 1
  | _, _ => 0

/-- Behind the last wait there are three steps left at most. -/
lemma remaining_le (s : Session) : s.remaining ≤ 3 := by
  unfold remaining
  split <;> omega

/-- The places of a supervisor that gives up. -/
lemma Abandoned.place (h : s.Abandoned) :
    (∃ b, s.supervisor = .killing b ∧ (s.life = .running ∨ s.life = .ended)) ∨
      (∃ d, s.supervisor = .concluding d ∧ s.life = .reaped) ∨
      (s.supervisor = .returned none ∧ s.life = .reaped) := by
  have hunder := h.coherent.under
  have hsees := h.coherent.sees
  rw [h.cancelled] at hunder
  cases hplace : s.supervisor with
  | absent =>
    rw [hplace] at hunder
    rcases hunder with hstate | hstate <;> cases hstate
  | watching => exact absurd (.inl hplace) h.behind
  | draining => exact absurd (.inr hplace) h.behind
  | killing b =>
    rw [hplace] at hsees
    exact .inl ⟨b, rfl, hsees⟩
  | concluding d =>
    rw [hplace] at hsees
    exact .inr (.inl ⟨d, rfl, hsees⟩)
  | delivering d =>
    rw [hplace] at hunder
    cases hunder
  | returned delivered =>
    rw [hplace] at hunder hsees
    cases delivered with
    | none => exact .inr (.inr ⟨rfl, hsees⟩)
    | some d => cases hunder

/-- Behind the last wait a cancelled session delivers nothing. -/
lemma Abandoned.not_delivers (h : s.Abandoned) : ¬ s.supervisor.Delivers := by
  rintro ⟨d, hd | hd⟩ <;> rcases h.place with ⟨b, hb, -⟩ | ⟨d', hd', -⟩ | ⟨hr, -⟩ <;> simp_all

/-- Nothing leads back to a wait, and every step of the supervisor and of the process is one fewer
to go. -/
lemma Abandoned.next (h : s.Abandoned) {a : Turn} (hnext : s.next a = some s') :
    s'.Abandoned ∧ s'.remaining + (if a.isWork then 1 else 0) ≤ s.remaining := by
  have hcoherent := h.coherent.next hnext
  have hterminal : s.state.isTerminal = true := by
    rw [h.cancelled]
    rfl
  have hcancelled : s'.state = .cancelled := by
    rw [state_eq_of_isTerminal hterminal hnext, h.cancelled]
  -- callers change nothing any more; of the steps, those that need a wait are past
  cases a with
  | start r launch =>
    obtain ⟨answer, -, hr⟩ := startResult_of_next hnext
    cases hr with
    | empty | again => exact ⟨h, by simp [Turn.isWork]⟩
    | unlaunched hc | launched hc =>
      rw [h.cancelled] at hc
      cases hc
  | cancel =>
    have hne : s.state ≠ .started := by
      rw [h.cancelled]
      simp
    obtain rfl := Option.some.inj hnext
    rw [cancel_of_not_started hne]
    exact ⟨h, by simp [Turn.isWork]⟩
  | event e =>
    have hbehind := h.behind
    have hplace := h.place
    cases happens_of_step hnext with
    | signal hs => exact ⟨⟨hcoherent, hcancelled, hbehind⟩, le_of_eq rfl⟩
    | deadlinePasses hl hs => exact ⟨⟨hcoherent, hcancelled, hbehind⟩, le_of_eq rfl⟩
    | killCancelled _ hs | killExpired _ hs | noticeEnd _ hs => exact absurd (.inl hs) hbehind
    | abandon _ hs | expire _ hs | collect _ hs => exact absurd (.inr hs) hbehind
    | processEnds hl =>
      refine ⟨⟨hcoherent, hcancelled, hbehind⟩, ?_⟩
      rcases hplace with ⟨b, hb, -⟩ | ⟨d, -, hreaped⟩ | ⟨-, hreaped⟩
      · cases b <;> simp [remaining, hb, hl, Turn.isWork]
      · simp [hl] at hreaped
      · simp [hl] at hreaped
    | reapCancelled hl hs | reapExpired hl hs =>
      refine ⟨⟨hcoherent, hcancelled, by simp [Supervisor.Waits]⟩, ?_⟩
      simp [remaining, hs, hl, Turn.isWork]
    | conclude d hs ht | deliver d hs => simp_all
    | concludeLate d hs ht =>
      refine ⟨⟨hcoherent, hcancelled, by simp [Supervisor.Waits]⟩, ?_⟩
      simp [remaining, hs, Turn.isWork]

/-- As long as the supervisor has not returned, it or the process can take a step. -/
lemma Abandoned.returned_of_stuck (h : s.Abandoned)
    (hstuck : ∀ a : Turn, a.isWork = true → s.next a = none) : s.supervisor = .returned none := by
  rcases h.place with ⟨b, hb, hl | hl⟩ | ⟨d, hd, -⟩ | ⟨hr, -⟩
  · have := hstuck (.event .processEnds) rfl
    simp [Session.next, step, hl] at this
  · have := hstuck (.event .reap) rfl
    cases b <;> simp [Session.next, step, hl, hb] at this
  · have := hstuck (.event .conclude) rfl
    simp [Session.next, step, hd, finish, h.cancelled] at this
  · exact hr

/-- What is left to do bounds what is done. -/
lemma Abandoned.continues (h : s.Abandoned) (y : Execution Session.next s) {i : ℕ}
    (hi : i ≤ y.length) :
    (y.state i).Abandoned ∧
      (y.state i).remaining + ((Finset.range i).filter fun k => (y.label k).isWork = true).card
        ≤ s.remaining := by
  induction i with
  | zero => simpa [y.state_zero] using h
  | succ i ih =>
    obtain ⟨habandoned, hcount⟩ := ih (by omega)
    obtain ⟨hnext, hless⟩ := habandoned.next (y.next_state i (by omega))
    refine ⟨hnext, ?_⟩
    rw [Finset.range_add_one, Finset.filter_insert]
    by_cases hwork : (y.label i).isWork = true
    · rw [if_pos hwork] at hless ⊢
      rw [Finset.card_insert_of_notMem (by simp)]
      omega
    · rw [if_neg hwork] at hless ⊢
      omega

/-- A cancelled session gives up behind the last wait. -/
lemma Abandoned.givesUp (h : s.Abandoned) : s.GivesUp := by
  intro y
  refine ⟨fun i hi => (h.continues y hi).1.not_delivers, ?_, ?_⟩
  · have hcount := (h.continues y le_rfl).2
    have := s.remaining_le
    unfold workOf
    omega
  · exact (h.continues y le_rfl).1.returned_of_stuck

/-! ## The permit -/

/-- Nobody intends to leave a permit any more once it was left. -/
lemma not_signalling_next (hs : s.state = .cancelled) (hsignal : s.signalling = false) {a : Turn}
    (hnext : s.next a = some s') : s'.signalling = false := by
  cases a with
  | start r launch =>
    obtain ⟨answer, -, hr⟩ := startResult_of_next hnext
    cases hr <;> exact hsignal
  | cancel =>
    have hne : s.state ≠ .started := by simp [hs]
    obtain rfl := Option.some.inj hnext
    rw [cancel_of_not_started hne]
    exact hsignal
  | event e =>
    cases happens_of_step hnext with
    | signal => rfl
    | _ => exact hsignal

/-- Whoever leaves the permit has nothing more to leave. -/
lemma not_signalling_of_signal (hstep : s.step .signal = some s') : s'.signalling = false := by
  cases happens_of_step hstep
  rfl

/-- A cancellation that has answered has left its permit. -/
lemma Run.CancelledBefore.states {x : Run} {i : ℕ} (h : x.CancelledBefore i) (hi : i ≤ x.length) :
    (x.state i).state = .cancelled ∧ (x.state i).signalling = false := by
  obtain ⟨j, k, hjk, hki, hcancels, hlabel⟩ := h
  have hcancelled : ∀ {m : ℕ}, j < m → m ≤ x.length → (x.state m).state = .cancelled :=
    fun hjm hm => (state_eq_cancelled_iff x hm).mpr ⟨j, hjm, hcancels⟩
  have hleft : (x.state (k + 1)).signalling = false := by
    have hnext := x.next_state k (by omega)
    rw [hlabel] at hnext
    exact not_signalling_of_signal hnext
  have hkept := x.invariant_from (P := fun s => s.state = .cancelled ∧ s.signalling = false)
    (fun s a s' hs hnext => ⟨by
      rw [state_eq_of_isTerminal (by rw [hs.1]; rfl) hnext, hs.1],
      not_signalling_next hs.1 hs.2 hnext⟩)
    ⟨hcancelled (by omega) (by omega), hleft⟩ hki hi
  exact hkept

/-! ## The end of the process -/

/-- The end of the process is taken note of in two ways. -/
lemma reaps_of_life {a : Turn} (hnext : s.next a = some s') (hl : s.life ≠ .reaped)
    (hl' : s'.life = .reaped) : a = .event .noticeEnd ∨ a = .event .reap := by
  cases a with
  | start r launch =>
    obtain ⟨answer, -, hr⟩ := startResult_of_next hnext
    cases hr with
    | empty | again | unlaunched => exact absurd hl' hl
    | launched => cases hl'
  | cancel =>
    obtain rfl := Option.some.inj hnext
    by_cases ht : s.state = .started
    · rw [cancel_of_started ht] at hl'
      exact absurd hl' hl
    · rw [cancel_of_not_started ht] at hl'
      exact absurd hl' hl
  | event e =>
    cases happens_of_step hnext with
    | noticeEnd => exact .inl rfl
    | reapCancelled | reapExpired => exact .inr rfl
    | processEnds => cases hl'
    | _ => exact absurd hl' hl

/-- A process that is reaped was reaped by a step. -/
lemma exists_reaps (x : Run) {i : ℕ} (hi : i ≤ x.length) (hl : (x.state i).life = .reaped) :
    ∃ j, j < i ∧ x.ReapsAt j := by
  have h₀ : ¬ (x.state 0).life = .reaped := by simp [x.state_zero]
  obtain ⟨j, -, hji, hj, hj'⟩ :=
    Execution.exists_step (P := fun i => (x.state i).life = .reaped) (Nat.zero_le i) h₀ hl
  exact ⟨j, hji, by omega, reaps_of_life (x.next_state j (by omega)) hj hj'⟩

/-- Behind an outcome the process is reaped. -/
lemma Coherent.reaped_of_outcome (h : s.Coherent) (ho : s.outcome?.isSome) : s.life = .reaped := by
  have hsees := h.sees
  unfold outcome? at ho
  split at ho
  · rename_i hs
    rw [hs] at hsees
    exact hsees
  · rename_i d hs
    rw [hs] at hsees
    exact hsees
  · cases ho

/-! ## Cancelled sessions -/

/-- **No lost cancellation, no surviving process.** In every order of starts, cancellations and
steps of the supervisor, the process and the clock: once a cancellation has answered true and as
long as the supervisor has not returned, either the supervisor waits and the permit is there, or it
is behind its last wait and on a way on which it returns without delivering; and whenever a caller
who waits is answered, in whatever way, the end of the process was taken note of before. -/
theorem cancellation_not_lost (x : Run) :
    (∀ i, i ≤ x.length → x.CancelledBefore i →
      (∀ delivered, (x.state i).supervisor ≠ .returned delivered) →
      ((x.state i).supervisor.Waits ∧ (x.state i).permit = true ∧
          ((x.state i).step .noticeCancel).isSome) ∨
        (¬ (x.state i).supervisor.Waits ∧ (x.state i).GivesUp)) ∧
    (∀ i, i ≤ x.length → (x.state i).outcome?.isSome →
      (x.state i).life = .reaped ∧ ∃ j, j < i ∧ x.ReapsAt j) := by
  refine ⟨?_, ?_⟩
  · intro i hi hbefore _
    have hcoherent := coherent_state x hi
    obtain ⟨hcancelled, hsignal⟩ := hbefore.states hi
    by_cases hwaits : (x.state i).supervisor.Waits
    · have hpermit : (x.state i).permit = true := by
        have hsummons := hcoherent.summons hcancelled hwaits
        exact hsummons.resolve_left (by simp [hsignal])
      refine .inl ⟨hwaits, hpermit, ?_⟩
      rcases hwaits with hs | hs <;> simp [step, hpermit, hs]
    · have habandoned : (x.state i).Abandoned := ⟨hcoherent, hcancelled, hwaits⟩
      exact .inr ⟨hwaits, habandoned.givesUp⟩
  · intro i hi ho
    have hreaped := (coherent_state x hi).reaped_of_outcome ho
    exact ⟨hreaped, exists_reaps x hi hreaped⟩

/-- A run in which the end of the process is taken although the permit is there. -/
def endPreferred : Run :=
  Execution.ofLabels next {}
    [.start { executable := ⟨[0x2F]⟩ } (.ok ()), .event .processEnds, .cancel, .event .signal,
      .event .noticeEnd, .event .noticeCancel]
    rfl

/-- An end that is taken although the permit is there changes nothing: the session is cancelled, and
the process reaped. -/
theorem cancellation_not_lost_endPreferred :
    endPreferred.CancelledBefore 5 ∧ (endPreferred.state 5).supervisor = .draining ∧
      (endPreferred.state 5).permit = true ∧
      (endPreferred.state 6).outcome? = some (.ok .cancelled) ∧
      ∃ j, j < 6 ∧ endPreferred.ReapsAt j := by
  have h := cancellation_not_lost endPreferred
  have hbefore : endPreferred.CancelledBefore 5 :=
    ⟨2, 3, by decide, by decide, ⟨by decide, rfl, rfl⟩, rfl⟩
  have hplace : (endPreferred.state 5).supervisor = .draining := rfl
  have hpermit := (h.1 5 (by decide) hbefore (by simp [hplace])).resolve_right
    fun hbehind => hbehind.1 (.inr hplace)
  exact ⟨hbefore, hplace, hpermit.2.1, rfl, (h.2 6 (by decide) rfl).2⟩

end Session

end SourceFormat.Subprocess
