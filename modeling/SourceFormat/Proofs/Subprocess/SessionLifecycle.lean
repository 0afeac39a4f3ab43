import Mathlib
import SourceFormat.Proofs.Subprocess.SessionOutcome

/-!
# The life of a session

The state of a session is one cell, and three parties write to it: a start, a cancellation, and the
supervisor when it concludes.  Each of them looks at the cell first, and one that does not find what
it needs leaves no trace.  That matters, because a trace would be found later: a permit left behind
by a cancellation that came too early would end the run that is started next.

* `StateMoves`, `stateMoves`: what each turn makes of the state, and with which answer.
* `Run.AsksAt`: the start that gets as far as the system.  There is at most one in a run, since it
  finds the session `created` and no turn leads back there.
* `state_moves_forward`: the life of a session as a whole.
-/

namespace SourceFormat.Subprocess

namespace Session

/-- A start was refused before the system was asked for a process. -/
def Refused (answer : Except RunError Unit) : Prop :=
  answer = .error .emptyExecutable ∨ answer = .error .alreadyStarted

/-- What a turn makes of the state of a session, with the answer that its caller gets. -/
inductive StateMoves (s : Session) : Turn → SessionState → Prop where
  | launches {r : Request} {launch : Except SystemError Unit} (hc : s.state = .created)
      (ha : (s.start r launch).1 = .ok ()) : StateMoves s (.start r launch) .started
  | failsToLaunch {r : Request} {launch : Except SystemError Unit} {source : SystemError}
      (hc : s.state = .created) (ha : (s.start r launch).1 = .error (.spawn r.executable source)) :
      StateMoves s (.start r launch) .terminated
  | refused {r : Request} {launch : Except SystemError Unit} (ha : Refused (s.start r launch).1) :
      StateMoves s (.start r launch) s.state
  | cancels (hs : s.state = .started) (ha : s.cancel.1 = true) : StateMoves s .cancel .cancelled
  /-- It comes too early or too late. -/
  | cancelsNothing (hs : s.state ≠ .started) (ha : s.cancel.1 = false) :
      StateMoves s .cancel s.state
  | concludes (hs : s.state = .started) : StateMoves s (.event .conclude) .terminated
  /-- Nothing else that happens to a session moves its state. -/
  | happens {e : Event} (h : e = .conclude → s.state ≠ .started) : StateMoves s (.event e) s.state

/-- Step `i` is a start that asks the system for a process. -/
def Run.AsksAt (x : Run) (i : ℕ) : Prop :=
  i < x.length ∧ ∃ r launch, x.label i = .start r launch ∧ ¬ Refused ((x.state i).start r launch).1

variable {s s' : Session}

/-! ## The state -/

/-- What every turn does to the state. -/
lemma stateMoves {a : Turn} (hnext : s.next a = some s') : s.StateMoves a s'.state := by
  cases a with
  | start r launch =>
    obtain ⟨answer, hstart, hr⟩ := startResult_of_next hnext
    cases hr with
    | empty => exact .refused (.inl (by rw [hstart]))
    | again => exact .refused (.inr (by rw [hstart]))
    | unlaunched hc => exact .failsToLaunch hc (by rw [hstart])
    | launched hc => exact .launches hc (by rw [hstart])
  | cancel =>
    obtain rfl := Option.some.inj hnext
    by_cases hs : s.state = .started
    · rw [cancel_of_started hs]
      exact .cancels hs (by rw [cancel_of_started hs])
    · rw [cancel_of_not_started hs]
      exact .cancelsNothing hs (by rw [cancel_of_not_started hs])
  | event e =>
    cases happens_of_step hnext with
    | conclude _ _ hs => exact .concludes hs
    | concludeLate _ _ hs => exact .happens fun _ => hs
    | _ => exact .happens (by simp)

/-- Nothing leads back to a session that was never started. -/
lemma ne_created_next (hs : s.state ≠ .created) {a : Turn} (hnext : s.next a = some s') :
    s'.state ≠ .created := by
  generalize ht : s'.state = state
  have hmoves := ht ▸ stateMoves hnext
  cases hmoves with
  | launches | failsToLaunch | cancels | concludes => simp
  | refused | cancelsNothing | happens => exact hs

/-! ## Starts -/

/-- A start that asks the system finds the session untouched, and not so the next one. -/
lemma Run.AsksAt.states {x : Run} {i : ℕ} (h : x.AsksAt i) :
    (x.state i).state = .created ∧ (x.state (i + 1)).state ≠ .created := by
  obtain ⟨hi, r, launch, hlabel, hasks⟩ := h
  have hnext := x.next_state i hi
  rw [hlabel] at hnext
  obtain ⟨answer, hstart, hr⟩ := startResult_of_next hnext
  rw [hstart] at hasks
  generalize x.state (i + 1) = s' at hr ⊢
  cases hr with
  | empty => exact absurd (.inl rfl) hasks
  | again => exact absurd (.inr rfl) hasks
  | unlaunched hc | launched hc => exact ⟨hc, by simp⟩

/-- A refused start leaves no trace. -/
lemma eq_of_refused {r : Request} {launch : Except SystemError Unit}
    (hnext : s.next (.start r launch) = some s') (ha : Refused (s.start r launch).1) : s' = s := by
  obtain ⟨answer, hstart, hr⟩ := startResult_of_next hnext
  rw [hstart] at ha
  cases hr with
  | empty | again => rfl
  | unlaunched | launched => simp [Refused] at ha

/-- A cancellation that does not end the session leaves no trace, and no permit either. -/
lemma eq_of_cancel (hnext : s.next .cancel = some s') (ha : s.cancel.1 = false) : s' = s := by
  obtain rfl := Option.some.inj hnext
  by_cases hs : s.state = .started
  · simp [cancel_of_started hs] at ha
  · rw [cancel_of_not_started hs]

/-- A session that was never started can be started like a new one. -/
lemma start_of_created (hc : s.state = .created) {r : Request} (hr : r.validate = .ok ()) :
    (s.start r (.ok ())).1 = .ok () ∧ (s.start r (.ok ())).2.state = .started := by
  simp [start, hr, hc]

/-! ## The process -/

/-- Only a start that succeeds makes a process. -/
lemma start_of_life {a : Turn} (hnext : s.next a = some s') (hl : s.life = .unborn)
    (hl' : s'.life ≠ .unborn) :
    ∃ r launch, a = .start r launch ∧ (s.start r launch).1 = .ok () := by
  cases a with
  | start r launch =>
    obtain ⟨answer, hstart, hr⟩ := startResult_of_next hnext
    cases hr with
    | empty | again | unlaunched => exact absurd hl hl'
    | launched => exact ⟨r, launch, rfl, by rw [hstart]⟩
  | cancel =>
    obtain rfl := Option.some.inj hnext
    by_cases hs : s.state = .started
    · rw [cancel_of_started hs] at hl'
      exact absurd hl hl'
    · rw [cancel_of_not_started hs] at hl'
      exact absurd hl hl'
  | event e =>
    cases happens_of_step hnext with
    | processEnds hrunning => rw [hl] at hrunning; cases hrunning
    | noticeEnd hended | reapCancelled hended | reapExpired hended =>
      rw [hl] at hended
      cases hended
    | _ => exact absurd hl hl'

/-- A session with a supervisor has a process. -/
lemma Coherent.life_ne_unborn (h : s.Coherent) (hs : s.supervisor ≠ .absent) :
    s.life ≠ .unborn := by
  have hsees := h.sees
  intro hl
  rw [hl] at hsees
  cases hplace : s.supervisor <;> simp_all [Supervisor.Sees]

/-- A session that was started stays launched for the request that it was started with. -/
lemma Run.StartsAt.launched {x : Run} {r : Request} {j n : ℕ} (h : x.StartsAt r j) (hjn : j < n)
    (hn : n ≤ x.length) : (x.state n).Launched r := by
  obtain ⟨hj, launch, hlabel, ha⟩ := h
  have hnext := x.next_state j hj
  rw [hlabel] at hnext
  obtain ⟨answer, hstart, hr⟩ := startResult_of_next hnext
  rw [hstart] at ha
  have hbegun : (x.state (j + 1)).Launched r := by
    generalize x.state (j + 1) = s' at hr ⊢
    cases ha
    cases hr
    exact ⟨by simp, by simp, rfl⟩
  exact x.invariant_from (P := fun s => s.Launched r) (fun _ _ _ h hnext => h.next hnext) hbegun
    hjn hn

/-- There is a process exactly if a start has succeeded. -/
lemma life_ne_unborn_iff (x : Run) {n : ℕ} (hn : n ≤ x.length) :
    (x.state n).life ≠ .unborn ↔ ∃ r j, j < n ∧ x.StartsAt r j := by
  constructor
  · intro hl
    have h₀ : ¬ (x.state 0).life ≠ .unborn := by simp [x.state_zero]
    obtain ⟨j, -, hjn, hj, hj'⟩ :=
      Execution.exists_step (P := fun n => (x.state n).life ≠ .unborn) (Nat.zero_le n) h₀ hl
    obtain ⟨r, launch, hlabel, ha⟩ :=
      start_of_life (x.next_state j (by omega)) (not_not.mp hj) hj'
    exact ⟨r, j, hjn, by omega, launch, hlabel, ha⟩
  · rintro ⟨r, j, hjn, hj⟩
    exact (coherent_state x hn).life_ne_unborn (hj.launched hjn hn).supervisor

/-- A start that succeeds has asked the system. -/
lemma Run.StartsAt.asksAt {x : Run} {r : Request} {j : ℕ} (h : x.StartsAt r j) : x.AsksAt j := by
  obtain ⟨hj, launch, hlabel, ha⟩ := h
  exact ⟨hj, r, launch, hlabel, by rw [ha]; simp [Refused]⟩

/-- The system is asked for a process once at most. -/
lemma asksAt_unique {x : Run} {i j : ℕ} (hi : x.AsksAt i) (hj : x.AsksAt j) : i = j := by
  have hlt : ∀ {i j : ℕ}, x.AsksAt i → x.AsksAt j → ¬ i < j := by
    intro i j hi hj hij
    refine x.invariant_from (P := fun s => s.state ≠ .created) ?_ hi.states.2 hij hj.1.le
      hj.states.1
    intro s a s' hs hnext
    exact ne_created_next hs hnext
  exact le_antisymm (not_lt.mp (hlt hj hi)) (not_lt.mp (hlt hi hj))

/-! ## The life of a session -/

/-- **The state of a session moves forward, and nothing else leaves a trace.** In every order of
starts, cancellations and steps of the supervisor, the process and the clock: the state moves from
`created` to `started` by a start that succeeds and to `terminated` by one whose launch fails, from
`started` to `cancelled` by a cancellation that is told so and to `terminated` by the supervisor,
and in no other way.  A final state stays.  The system is asked for a process once at most, and
there is a process exactly if a start has succeeded.  A start that is refused and a cancellation
that does not end the session leave it as it was, permit, process and outcome included; and a
session that still is `created` is as good as new. -/
theorem state_moves_forward (x : Run) :
    (∀ i, i < x.length → (x.state i).StateMoves (x.label i) (x.state (i + 1)).state) ∧
    (∀ i k, i ≤ k → k ≤ x.length → (x.state i).state.isTerminal = true →
      (x.state k).state = (x.state i).state) ∧
    (∀ i j, x.AsksAt i → x.AsksAt j → i = j) ∧
    (∀ r i, x.StartsAt r i → x.AsksAt i) ∧
    (∀ n, n ≤ x.length → ((x.state n).life ≠ .unborn ↔ ∃ r j, j < n ∧ x.StartsAt r j)) ∧
    (∀ i r launch, i < x.length → x.label i = .start r launch →
      Refused ((x.state i).start r launch).1 → x.state (i + 1) = x.state i) ∧
    (∀ i, i < x.length → x.label i = .cancel → (x.state i).cancel.1 = false →
      x.state (i + 1) = x.state i) ∧
    (∀ i, i ≤ x.length → (x.state i).state = .created → x.state i = {} ∧
      ∀ r : Request, r.validate = .ok () → ((x.state i).start r (.ok ())).1 = .ok () ∧
        ((x.state i).start r (.ok ())).2.state = .started) := by
  refine ⟨?_, ?_, ?_, ?_, ?_, ?_, ?_, ?_⟩
  · intro i hi
    exact stateMoves (x.next_state i hi)
  · intro i k hik hk hs
    exact state_eq_of_le x hs hik hk
  · intro i j hi hj
    exact asksAt_unique hi hj
  · intro r i hi
    exact hi.asksAt
  · intro n hn
    exact life_ne_unborn_iff x hn
  · intro i r launch hi hlabel ha
    have hnext := x.next_state i hi
    rw [hlabel] at hnext
    exact eq_of_refused hnext ha
  · intro i hi hlabel ha
    have hnext := x.next_state i hi
    rw [hlabel] at hnext
    exact eq_of_cancel hnext ha
  · intro i hi hc
    refine ⟨(coherent_state x hi).created hc, ?_⟩
    intro r hr
    exact start_of_created hc hr

/-- A run in which everything is tried at a wrong time as well: it is cancelled before it is started
and when it is over, and started without an executable and again. -/
def wrongTimes : Run :=
  Execution.ofLabels next {}
    [.cancel, .start { executable := ⟨[]⟩ } (.ok ()), .start { executable := ⟨[0x2F]⟩ } (.ok ()),
      .start { executable := ⟨[0x2E]⟩ } (.ok ()), .event .processEnds, .event .noticeEnd,
      .event (.collect (.exited { exitCode := 0, stdout := "", stderr := "" })), .event .conclude,
      .cancel, .event .deliver]
    rfl

/-- Starts and cancellations at the wrong times, of which none leaves a trace. -/
theorem state_moves_forward_wrongTimes :
    wrongTimes.state 2 = {} ∧ wrongTimes.state 4 = wrongTimes.state 3 ∧
      (wrongTimes.state 8).state = .terminated ∧ wrongTimes.state 9 = wrongTimes.state 8 ∧
      (wrongTimes.state 10).state = .terminated ∧ ¬ wrongTimes.AsksAt 3 ∧
      (wrongTimes.state 10).outcome? =
        some (.ok (.exited { exitCode := 0, stdout := "", stderr := "" })) := by
  obtain ⟨-, hfinal, hunique, hasks, -, hrefused, hcancel, hcreated⟩ :=
    state_moves_forward wrongTimes
  have hstarts : wrongTimes.StartsAt { executable := ⟨[0x2F]⟩ } 2 := ⟨by decide, _, rfl, rfl⟩
  have hover : (wrongTimes.state 8).state = .terminated := rfl
  exact ⟨(hcreated 2 (by decide) rfl).1, hrefused 3 _ _ (by decide) rfl (.inr rfl), hover,
    hcancel 8 (by decide) rfl rfl, hfinal 8 10 (by decide) (by decide) (by rw [hover]; rfl),
    fun h => absurd (hunique 2 3 (hasks _ 2 hstarts) h) (by decide), rfl⟩

end Session

end SourceFormat.Subprocess
