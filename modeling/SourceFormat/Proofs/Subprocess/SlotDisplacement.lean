import Mathlib
import SourceFormat.Proofs.Subprocess.SlotLiveRun

/-!
# Who cancels a run in a slot

A run is taken out of its slot by the next call that enters the critical section, or by somebody who
cancels, or it takes itself out behind its own outcome.  Meanwhile its session may end by itself at
any moment.

`cancelled_iff_found`: in every order of the steps of any number of calls, cancellations and
sessions, a call whose process was launched returns `cancelled` if and only if somebody who entered
behind it found its session still running.  There is exactly one who did, and a cancellation answers
true exactly if it is that one.  Otherwise the call returns what its own process came to.  A request
that cannot be launched has ended the run before it all the same, and leaves the slot empty.

Every call can still return, from every state: this is possibility and not fairness.
-/

namespace SourceFormat.Subprocess

/-- The supervisor is about to report a passed deadline, or has reported it. -/
def Supervisor.Expires (p : Supervisor) : Prop :=
  p = .killing true ∨ ∃ d, p.delivery? = some (.failed (.timedOut d))

namespace Session

variable {s s' : Session}

/-! ## What a session delivers -/

/-- What is delivered is what the exchange came to, unless the deadline has passed. -/
lemma collect_of_delivery {e : Event} {d : Delivery} (hne : ∀ limit, d ≠ .failed (.timedOut limit))
    (hstep : s.step e = some s') (hd' : s'.supervisor.delivery? = some d)
    (hd : s.supervisor.delivery? ≠ some d) : ∃ found, e = .collect found ∧ found.delivery = d := by
  cases happens_of_step hstep with
  | signal | processEnds | deadlinePasses => exact absurd hd' hd
  | killCancelled | abandon | killExpired | noticeEnd | reapCancelled | concludeLate => cases hd'
  | expire | reapExpired => exact absurd (Option.some.inj hd').symm (hne _)
  | collect found => exact ⟨found, rfl, Option.some.inj hd'⟩
  | conclude d' hs | deliver d' hs => exact absurd (by rw [hs]; exact hd') hd

/-- Only a deadline that is noticed has a supervisor report one. -/
lemma noticeDeadline_of_expires {e : Event} (hstep : s.step e = some s')
    (h' : s'.supervisor.Expires) (h : ¬ s.supervisor.Expires) : e = .noticeDeadline := by
  cases happens_of_step hstep with
  | signal | processEnds | deadlinePasses => exact absurd h' h
  | killExpired | expire => rfl
  | killCancelled | abandon | noticeEnd | reapCancelled | concludeLate =>
    simp [Supervisor.Expires, Supervisor.delivery?] at h'
  | reapExpired _ hs => exact absurd (.inl hs) h
  | collect found =>
    simp [Supervisor.Expires, Supervisor.delivery?, found.delivery_ne_timedOut] at h'
  | conclude d hs | deliver d hs =>
    have hkeeps : s.supervisor.Expires := by
      simpa [Supervisor.Expires, Supervisor.delivery?, hs] using h'
    exact absurd hkeeps h

/-- An outcome that is no cancellation was delivered. -/
lemma delivery_of_outcome {o : Except RunError Outcome} (ho : s.outcome? = some o)
    (hne : o ≠ .ok .cancelled) : ∃ d, s.supervisor.delivery? = some d ∧ d.outcome = o := by
  unfold outcome? at ho
  split at ho
  · exact absurd (Option.some.inj ho).symm hne
  · rename_i d hs
    exact ⟨d, by rw [hs]; rfl, Option.some.inj ho⟩
  · cases ho

/-- Nobody has cancelled a session behind its start, and its supervisor has just begun. -/
lemma start_default (r : Request) (launch : Except SystemError Unit) :
    (start {} r launch).2.state ≠ .cancelled ∧
      ((start {} r launch).2.supervisor = .absent ∨
        (start {} r launch).2.supervisor = .watching) := by
  cases hr : start {} r launch with
  | mk answer session =>
    cases startResult hr <;> simp

end Session

namespace Slot

/-- Step `j` enters the critical section and finds session `i` current and running. -/
def Run.FindsAt (x : Run) (i j : ℕ) : Prop :=
  j < x.length ∧ (x.label j).Enters ∧ (x.state j).Holds i ∧
    ∃ session, (x.state j).sessions[i]? = some session ∧ session.state = .started

/-- Step `j` goes through the critical section for call `c`, which is refused there. -/
def Run.RefusesAt (x : Run) (c : ℕ) (e : RunError) (j : ℕ) : Prop :=
  j < x.length ∧ (∃ launch, x.label j = .enter c launch) ∧
    ∃ call, (x.state (j + 1)).calls[c]? = some call ∧ call.stage = .returned (.error e)

/-- At time `n` the call has returned this outcome. -/
def Run.Returns (x : Run) (c n : ℕ) (o : Except RunError Outcome) : Prop :=
  n ≤ x.length ∧ ∃ call, (x.state n).calls[c]? = some call ∧ call.outcome? = some o

/-- Before time `n` the process of session `i` has come to this outcome: its exchange has ended, or
the limit of the request has passed. -/
def Run.ComesTo (x : Run) (i : ℕ) (r : Request) (n : ℕ) (o : Except RunError Outcome) : Prop :=
  ∃ j, j < n ∧
    ((∃ found, x.label j = .session i (.collect found) ∧ found.delivery.outcome = o) ∨
      (x.label j = .session i .noticeDeadline ∧
        ∃ d, r.timeout = some d ∧ o = .error (.timedOut d)))

/-- Steps lead to a state in which the call has returned. -/
def CanReturn (s : Slot) (c : ℕ) : Prop :=
  ∃ s', Relation.ReflTransGen (fun s s' => ∃ a, step s a = some s') s s' ∧
    ∃ call, s'.calls[c]? = some call ∧ call.outcome?.isSome

variable {s s' : Slot} {a : Action}

/-! ## Who ended a session -/

/-- Only somebody who finds it running makes a session a cancelled one. -/
lemma found_of_cancelled (hm : Moves s a s') {i : ℕ} {session' : Session}
    (hi' : s'.sessions[i]? = some session') (hs' : session'.state = .cancelled)
    (hnot : ¬ ∃ session, s.sessions[i]? = some session ∧ session.state = .cancelled) :
    a.Enters ∧ s.Holds i ∧ ∃ session, s.sessions[i]? = some session ∧ session.state = .started := by
  cases sessionMoves hm i with
  | stays hsame => exact absurd ⟨session', hsame ▸ hi', hs'⟩ hnot
  | begins _ _ _ _ h' =>
    obtain rfl := Option.some.inj (h'.symm.trans hi')
    exact absurd hs' (Session.start_default _ _).1
  | takenOut ha hh hi h' =>
    refine ⟨ha, hh, _, hi, ?_⟩
    by_contra hne
    obtain rfl := Option.some.inj (h'.symm.trans hi')
    rw [Session.cancel_of_not_started hne] at hs'
    exact hnot ⟨_, hi, hs'⟩
  | happens _ hi h' hstep =>
    obtain rfl := Option.some.inj (h'.symm.trans hi')
    have hturn := Session.cancel_of_state_eq_cancelled (a := .event _) hstep
      (fun hs => hnot ⟨_, hi, hs⟩) hs'
    cases hturn.1

/-- Whoever enters and finds it running leaves a session cancelled. -/
lemma cancelled_of_found (hm : Moves s a s') (ha : a.Enters) {i : ℕ} (hh : s.Holds i)
    {session : Session} (hi : s.sessions[i]? = some session) (hs : session.state = .started) :
    ∃ session', s'.sessions[i]? = some session' ∧ session'.state = .cancelled := by
  have hcancel : s.cancel.2.sessions[i]? = some session.cancel.2 := by
    rw [getElem?_cancel_of_holds hh, hi]
    rfl
  refine ⟨session.cancel.2, ?_, by rw [Session.cancel_of_started hs]⟩
  have hlt := (List.getElem?_eq_some_iff.mp hcancel).1
  cases hm with
  | call | number | wake | leaveOwn | leaveOther | session => exact ha.elim
  | refuse | start => exact (List.getElem?_append_left hlt).trans hcancel
  | cancel => exact hcancel

/-- A session that is over stays as it ended. -/
lemma terminal_next {state : SessionState} (ht : state.isTerminal = true) (hm : Moves s a s') {i : ℕ}
    (h : ∃ session, s.sessions[i]? = some session ∧ session.state = state) :
    ∃ session, s'.sessions[i]? = some session ∧ session.state = state := by
  obtain ⟨session, hi, hs⟩ := h
  refine session_keeps (fun session turn session' hs hnext => ?_) hm hi hs
  rw [Session.state_eq_of_isTerminal (by rw [hs]; exact ht) hnext, hs]

/-- A session is cancelled if and only if somebody has found it running. -/
lemma cancelled_iff (x : Run) {i n : ℕ} (hn : n ≤ x.length) :
    (∃ session, (x.state n).sessions[i]? = some session ∧ session.state = .cancelled) ↔
      ∃ j, j < n ∧ x.FindsAt i j := by
  constructor
  · intro hs
    have h₀ : ¬ ∃ session, (x.state 0).sessions[i]? = some session ∧
        session.state = .cancelled := by simp [x.state_zero]
    obtain ⟨j, -, hjn, hj, session, hi, hs⟩ := Execution.exists_step
      (P := fun n => ∃ session, (x.state n).sessions[i]? = some session ∧
        session.state = .cancelled) (Nat.zero_le n) h₀ hs
    exact ⟨j, hjn, by omega, found_of_cancelled (moves_run x (by omega)) hi hs hj⟩
  · rintro ⟨j, hjn, hj, henters, hholds, session, hi, hs⟩
    exact x.invariant_from
      (P := fun s => ∃ session, s.sessions[i]? = some session ∧ session.state = .cancelled)
      (fun _ _ _ h hnext => terminal_next rfl (moves_of_step hnext) h)
      (cancelled_of_found (moves_run x hj) henters hholds hi hs) hjn hn

/-- Nobody finds a session running that somebody else has found so before. -/
lemma findsAt_unique {x : Run} {i j k : ℕ} (hj : x.FindsAt i j) (hk : x.FindsAt i k) : j = k := by
  have hlt : ∀ {j k : ℕ}, x.FindsAt i j → x.FindsAt i k → ¬ j < k := by
    rintro j k hj ⟨hk, -, -, session, hi, hs⟩ hjk
    obtain ⟨session', hi', hs'⟩ := (cancelled_iff x hk.le).mpr ⟨j, hjk, hj⟩
    obtain rfl := Option.some.inj (hi.symm.trans hi')
    cases hs.symm.trans hs'
  exact le_antisymm (not_lt.mp (hlt hk hj)) (not_lt.mp (hlt hj hk))

/-! ## What a call returns -/

/-- What a supervisor has come to, it came to by a step of its session. -/
lemma exists_event (x : Run) {P : Supervisor → Prop} (habsent : ¬ P .absent)
    (hwatching : ¬ P .watching) {i n : ℕ} (hn : n ≤ x.length) {session : Session}
    (hi : (x.state n).sessions[i]? = some session) (h : P session.supervisor) :
    ∃ j e, ∃ before after : Session, j < n ∧ x.label j = .session i e ∧
      before.step e = some after ∧ P after.supervisor ∧ ¬ P before.supervisor := by
  have h₀ : ¬ ∃ session, (x.state 0).sessions[i]? = some session ∧ P session.supervisor := by
    simp [x.state_zero]
  obtain ⟨j, -, hjn, hj, after, hafter, hP⟩ := Execution.exists_step
    (P := fun n => ∃ session, (x.state n).sessions[i]? = some session ∧ P session.supervisor)
    (Nat.zero_le n) h₀ ⟨session, hi, h⟩
  cases sessionMoves (moves_run x (by omega : j < x.length)) i with
  | stays hsame => exact absurd ⟨after, hsame ▸ hafter, hP⟩ hj
  | begins _ _ _ _ h' =>
    obtain rfl := Option.some.inj (h'.symm.trans hafter)
    rcases (Session.start_default _ _).2 with hs | hs
    · exact absurd (hs ▸ hP) habsent
    · exact absurd (hs ▸ hP) hwatching
  | @takenOut before _ _ hbefore h' =>
    obtain rfl := Option.some.inj (h'.symm.trans hafter)
    rw [Session.cancel_supervisor] at hP
    exact absurd ⟨before, hbefore, hP⟩ hj
  | @happens before _ e ha hbefore h' hstep =>
    obtain rfl := Option.some.inj (h'.symm.trans hafter)
    exact ⟨j, e, before, _, hjn, ha, hstep, hP, fun hP' => hj ⟨before, hbefore, hP'⟩⟩

/-- An outcome that is no cancellation is what the process has come to. -/
lemma comesTo_of_outcome (x : Run) {i n : ℕ} (hn : n ≤ x.length) {session : Session} {r : Request}
    (hi : (x.state n).sessions[i]? = some session) (hlaunched : session.Launched r)
    {o : Except RunError Outcome} (ho : session.outcome? = some o) (hne : o ≠ .ok .cancelled) :
    x.ComesTo i r n o := by
  obtain ⟨d, hd, rfl⟩ := Session.delivery_of_outcome ho hne
  by_cases hlate : ∃ limit, d = .failed (.timedOut limit)
  · obtain ⟨limit, rfl⟩ := hlate
    obtain ⟨j, e, before, after, hjn, hlabel, hstep, hafter, hbefore⟩ := exists_event x
      (P := Supervisor.Expires) (by simp [Supervisor.Expires, Supervisor.delivery?])
      (by simp [Supervisor.Expires, Supervisor.delivery?]) hn hi (.inr ⟨limit, hd⟩)
    obtain rfl := Session.noticeDeadline_of_expires hstep hafter hbefore
    have hlimit := ((coherent_state x hn).session hi).limit_of_outcome ho
    rw [Session.limit, hlaunched.request] at hlimit
    exact ⟨j, hjn, .inr ⟨hlabel, limit, hlimit, rfl⟩⟩
  · obtain ⟨j, e, before, after, hjn, hlabel, hstep, hafter, hbefore⟩ := exists_event x
      (P := fun p => p.delivery? = some d) (by simp [Supervisor.delivery?])
      (by simp [Supervisor.delivery?]) hn hi hd
    obtain ⟨found, rfl, rfl⟩ := Session.collect_of_delivery
      (fun limit h => hlate ⟨limit, h⟩) hstep hafter hbefore
    exact ⟨j, hjn, .inl ⟨found, hlabel, rfl⟩⟩

/-- Call `c` waits for session `i`, which was started for it, or has got its outcome. -/
def Follows (s : Slot) (c id i : ℕ) : Prop :=
  ∃ call session, s.calls[c]? = some call ∧ s.sessions[i]? = some session ∧
    session.Launched call.request ∧
      (call.stage = .waiting id i ∨
        ∃ o, session.outcome? = some o ∧ (call.stage = .leaving id o ∨ call.stage = .returned o))

/-- A call follows its session until it returns. -/
lemma Follows.next {c id i : ℕ} (h : s.Follows c id i) (hs : s.Coherent) (hm : Moves s a s') :
    s'.Follows c id i := by
  obtain ⟨call, session, hc, hi, hlaunched, hstage⟩ := h
  obtain ⟨session', hi', -, hlaunched', hkept⟩ := session_keeps
    (P := fun x => x.Coherent ∧ x.Launched call.request ∧
      ∀ o, session.outcome? = some o → x.outcome? = some o)
    (fun _ _ _ h hnext => ⟨h.1.next hnext, h.2.1.next hnext,
      fun o ho => h.1.outcome_next (h.2.2 o ho) hnext⟩)
    hm hi ⟨hs.session hi, hlaunched, fun _ ho => ho⟩
  cases callMoves hm c with
  | stays hsame =>
    refine ⟨call, session', hsame.trans hc, hi', hlaunched', hstage.imp_right ?_⟩
    rintro ⟨o, ho, hstage⟩
    exact ⟨o, hkept o ho, hstage⟩
  | arrives _ hnone =>
    rw [hc] at hnone
    cases hnone
  | @advances _ call' hc' hcall' hadv =>
    obtain rfl := Option.some.inj (hc.symm.trans hc')
    refine ⟨call', session', hcall', hi', hadv.request_eq ▸ hlaunched', .inr ?_⟩
    cases hadv with
    | number hplace | refuse hplace | start hplace => simp [hplace] at hstage
    | wake hplace hj ho =>
      rcases hstage with hstage | ⟨o', -, hstage | hstage⟩ <;> cases hplace.symm.trans hstage
      obtain rfl := Option.some.inj (hi.symm.trans hj)
      exact ⟨_, hkept _ ho, .inl rfl⟩
    | leave hplace =>
      rcases hstage with hstage | ⟨o', ho, hstage | hstage⟩ <;> cases hplace.symm.trans hstage
      exact ⟨_, hkept _ ho, .inr rfl⟩

/-- Behind its start a call follows the session that was started for it. -/
lemma Run.StartsAt.follows {x : Run} {c i m n : ℕ} (h : x.StartsAt c i m) (hmn : m < n)
    (hn : n ≤ x.length) : ∃ id, (x.state n).Follows c id i := by
  obtain ⟨-, call, id, launch, hc, hs, -, hi, hr⟩ := h.started
  obtain ⟨-, hfollows⟩ := x.invariant_from (P := fun s => s.Coherent ∧ s.Follows c id i)
    (fun _ _ _ h hnext =>
      ⟨h.1.next (moves_of_step hnext), h.2.next h.1 (moves_of_step hnext)⟩)
    ⟨coherent_state x h.1, call, _, hc, hi, Session.launched_start hr, .inl hs⟩ hmn hn
  exact ⟨id, hfollows⟩

/-- A call has an outcome if it has returned it. -/
lemma stage_of_outcome {call : Call} {o : Except RunError Outcome} (ho : call.outcome? = some o) :
    call.stage = .returned o := by
  unfold Call.outcome? at ho
  split at ho <;> cases ho
  assumption

/-- A call that has returned takes no more steps. -/
lemma returned_next (hm : Moves s a s') {c : ℕ} {call : Call} {o : Except RunError Outcome}
    (hc : s.calls[c]? = some call) (hs : call.stage = .returned o) :
    s'.calls[c]? = some call := by
  cases callMoves hm c with
  | stays hsame => exact hsame.trans hc
  | arrives _ hnone =>
    rw [hc] at hnone
    cases hnone
  | advances hc' _ hadv =>
    obtain rfl := Option.some.inj (hc.symm.trans hc')
    cases hadv with
    | number hs' | refuse hs' | start hs' | wake hs' | leave hs' => cases hs.symm.trans hs'

/-- A call returns behind its start. -/
lemma Run.StartsAt.lt_of_returns {x : Run} {c i m n : ℕ} {o : Except RunError Outcome}
    (h : x.StartsAt c i m) (hreturns : x.Returns c n o) : m < n := by
  obtain ⟨hn, call, hc, ho⟩ := hreturns
  by_contra hle
  have hm := h.1
  obtain ⟨-, call', id, -, hc', hs', -⟩ := h.started
  have hs := stage_of_outcome ho
  have hkept := x.invariant_from (P := fun s => s.calls[c]? = some call)
    (fun _ _ _ h hnext => returned_next (moves_of_step hnext) h hs) hc (k := m + 1) (by omega)
    (by omega)
  obtain rfl := Option.some.inj (hkept.symm.trans hc')
  cases hs.symm.trans hs'

/-- A session is found only when it is there. -/
lemma Run.StartsAt.lt_of_findsAt {x : Run} {c i m j : ℕ} (h : x.StartsAt c i m)
    (hj : x.FindsAt i j) : m < j := by
  obtain ⟨hlen, -⟩ := h.started
  obtain ⟨-, -, -, session, hi, -⟩ := hj
  by_contra hle
  have hlt := (List.getElem?_eq_some_iff.mp hi).1
  have hmono := x.invariant_from (P := fun s => (x.state j).sessions.length ≤ s.sessions.length)
    (fun _ _ _ h hnext => h.trans (sessions_length_le (moves_of_step hnext))) le_rfl
    (not_lt.mp hle) h.1.le
  omega

/-- A call that has returned has the outcome of its session. -/
lemma Run.StartsAt.outcome {x : Run} {c i m n : ℕ} {o : Except RunError Outcome}
    (h : x.StartsAt c i m) (hreturns : x.Returns c n o) :
    ∃ call session, (x.state n).calls[c]? = some call ∧ (x.state n).sessions[i]? = some session ∧
      session.Launched call.request ∧ session.outcome? = some o := by
  obtain ⟨id, call, session, hc, hi, hlaunched, hstage⟩ :=
    h.follows (h.lt_of_returns hreturns) hreturns.1
  obtain ⟨-, call', hc', ho⟩ := hreturns
  obtain rfl := Option.some.inj (hc.symm.trans hc')
  have hs := stage_of_outcome ho
  rcases hstage with hs' | ⟨o', ho', hs' | hs'⟩ <;> cases hs.symm.trans hs'
  exact ⟨call, session, hc, hi, hlaunched, ho'⟩

/-! ## Refused calls -/

/-- A call that goes through the critical section is started or refused there. -/
lemma starts_or_refuses (x : Run) {c j : ℕ} {launch : Except SystemError Unit} (hj : j < x.length)
    (hlabel : x.label j = .enter c launch) : (∃ i, x.StartsAt c i j) ∨ ∃ e, x.RefusesAt c e j := by
  have hmoves := moves_run x hj
  rw [hlabel] at hmoves
  generalize hs' : x.state (j + 1) = s' at hmoves
  cases hmoves with
  | @refuse _ _ call _ e _ hc =>
    have hlt := (List.getElem?_eq_some_iff.mp hc).1
    exact .inr ⟨e, hj, ⟨launch, hlabel⟩, { call with stage := .returned (.error e) },
      by simp [hs', hlt], rfl⟩
  | @start _ id call _ _ hc =>
    have hlt := (List.getElem?_eq_some_iff.mp hc).1
    exact .inl ⟨(x.state j).sessions.length, hj, ⟨launch, hlabel⟩,
      { call with stage := .waiting id (x.state j).sessions.length }, id, by simp [hs', hlt], rfl⟩

/-- A refused call was refused by the start of its own session, and has emptied the slot. -/
lemma Run.RefusesAt.leaves {x : Run} {c j : ℕ} {e : RunError} (h : x.RefusesAt c e j) :
    (∃ launch call, x.label j = .enter c launch ∧ (x.state (j + 1)).calls[c]? = some call ∧
        (Session.start {} call.request launch).1 = .error e) ∧
      (x.state (j + 1)).current = none := by
  obtain ⟨hj, ⟨launch, hlabel⟩, call, hc, hs⟩ := h
  have hmoves := moves_run x hj
  rw [hlabel] at hmoves
  generalize x.state (j + 1) = s' at hmoves hc ⊢
  cases hmoves with
  | refuse hc' _ hr =>
    have hlt := (List.getElem?_eq_some_iff.mp hc').1
    obtain rfl : _ = call := by simpa [hlt] using hc
    cases hs
    exact ⟨⟨launch, _, hlabel, hc, by rw [hr]⟩, by simp⟩
  | start hc' =>
    have hlt := (List.getElem?_eq_some_iff.mp hc').1
    obtain rfl : _ = call := by simpa [hlt] using hc
    cases hs

/-! ## Every call can return -/

/-- A call can return if it can behind a step. -/
lemma CanReturn.of_step {c : ℕ} (hstep : s.step a = some s') (h : s'.CanReturn c) :
    s.CanReturn c := by
  obtain ⟨t, hst, ht⟩ := h
  exact ⟨t, .head ⟨a, hstep⟩ hst, ht⟩

/-- The call at `c` behind a step of its own. -/
lemma getElem?_moveTo {c : ℕ} {call : Call} (t : Slot) (stage : Stage)
    (hc : t.calls[c]? = some call) :
    (t.moveTo c call stage).calls[c]? = some { call with stage } := by
  have hlt := (List.getElem?_eq_some_iff.mp hc).1
  simp [hlt]

/-- A call that is about to leave can return. -/
lemma canReturn_of_leaving {c id : ℕ} {call : Call} {o : Except RunError Outcome}
    (hc : s.calls[c]? = some call) (hs : call.stage = .leaving id o) : s.CanReturn c := by
  obtain ⟨s', hstep⟩ : ∃ s', s.step (.leave c) = some s' := by
    simp only [step, hc, hs, Option.some.injEq, exists_eq']
  refine .of_step hstep ⟨s', .refl, { call with stage := .returned o }, ?_, rfl⟩
  cases moves_of_leave hc hs hstep with
  | leaveOwn hc' hs' | leaveOther hc' hs' =>
    obtain rfl := Option.some.inj (hc.symm.trans hc')
    cases hs.symm.trans hs'
    exact getElem?_moveTo _ _ hc

/-- What a session can do, it can do in its slot. -/
lemma steps_of_session {i : ℕ} {session session' : Session} (hi : s.sessions[i]? = some session)
    (h : Relation.ReflTransGen (fun x y : Session => ∃ e, x.step e = some y) session session') :
    ∃ s', Relation.ReflTransGen (fun s s' => ∃ a, step s a = some s') s s' ∧
      s'.calls = s.calls ∧ s'.sessions[i]? = some session' := by
  induction h with
  | refl => exact ⟨s, .refl, rfl, hi⟩
  | @tail before after _ hstep ih =>
    obtain ⟨t, hst, hcalls, hbefore⟩ := ih
    obtain ⟨e, hstep⟩ := hstep
    have hlt := (List.getElem?_eq_some_iff.mp hbefore).1
    refine ⟨{ t with sessions := t.sessions.set i after }, hst.tail ⟨.session i e, ?_⟩, hcalls, ?_⟩
    · simp only [step, hbefore, hstep, Option.map_some]
    · simp [hlt]

/-- A call that waits can return, since its session can end. -/
lemma Coherent.canReturn_of_waiting (h : s.Coherent) {c id i : ℕ} {call : Call}
    (hc : s.calls[c]? = some call) (hs : call.stage = .waiting id i) : s.CanReturn c := by
  obtain ⟨session, hi, hlaunched⟩ := h.waits hc hs
  obtain ⟨session', hsteps, hended⟩ := (h.session hi).canEnd hlaunched.supervisor
  obtain ⟨o, ho⟩ := Option.isSome_iff_exists.mp hended
  obtain ⟨t, hst, hcalls, hi'⟩ := steps_of_session hi hsteps
  have hc' : t.calls[c]? = some call := hcalls ▸ hc
  have hwake : t.step (.wake c) = some (t.moveTo c call (.leaving id o)) := by
    simp [step, hc', hs, hi', ho]
  obtain ⟨u, htu, hu⟩ := CanReturn.of_step hwake
    (canReturn_of_leaving (getElem?_moveTo _ _ hc') rfl)
  exact ⟨u, hst.trans htu, hu⟩

/-- A call with a number can return, launched or refused. -/
lemma Coherent.canReturn_of_numbered (h : s.Coherent) {c id : ℕ} {call : Call}
    (hc : s.calls[c]? = some call) (hs : call.stage = .numbered id) : s.CanReturn c := by
  have hstep : s.step (.enter c (.ok ())) = some (s.enterWith c call id (.ok ())) := by
    simp only [step, hc, hs]
  have hmoves := moves_of_enter (.ok ()) hc hs
  refine .of_step hstep ?_
  have hcoherent := h.next hmoves
  generalize s.enterWith c call id (.ok ()) = s' at hmoves hcoherent ⊢
  cases hmoves with
  | refuse hc' => exact ⟨_, .refl, _, getElem?_moveTo _ _ (by simpa using hc'), rfl⟩
  | start hc' =>
    exact hcoherent.canReturn_of_waiting (getElem?_moveTo _ _ (by simpa using hc')) rfl

/-- Every call can return. -/
lemma Coherent.canReturn (h : s.Coherent) {c : ℕ} {call : Call} (hc : s.calls[c]? = some call) :
    s.CanReturn c := by
  cases hs : call.stage with
  | arrived =>
    have hstep : s.step (.number c) =
        some ({ s with nextId := s.nextId + 1 }.moveTo c call (.numbered s.nextId)) := by
      simp only [step, hc, hs]
    have hcoherent := h.next (moves_of_step hstep)
    exact .of_step hstep (hcoherent.canReturn_of_numbered (getElem?_moveTo _ _ hc) rfl)
  | numbered id => exact h.canReturn_of_numbered hc hs
  | waiting id i => exact h.canReturn_of_waiting hc hs
  | leaving id o => exact canReturn_of_leaving hc hs
  | returned o => exact ⟨s, .refl, call, hc, by simp [Call.outcome?, hs]⟩

/-! ## Displacement -/

/-- **Results match displacement.** In every order of the steps of any number of calls,
cancellations and sessions.  A call whose process was launched returns `cancelled` if and only if
somebody entered behind it and found its session running; otherwise it returns what its own process
came to.  Of those who enter, exactly one finds a cancelled session running, and the session is
cancelled behind that step; a cancellation answers true exactly if it finds one.  A call that enters
is started or refused; one that is refused has emptied the slot all the same, and leaves nothing
running.  Every call can return. -/
theorem cancelled_iff_found (x : Run) :
    (∀ c i m n o, x.StartsAt c i m → x.Returns c n o →
      (o = .ok .cancelled ↔ ∃ j, m < j ∧ j < n ∧ x.FindsAt i j) ∧
        (o ≠ .ok .cancelled → ∃ call, (x.state n).calls[c]? = some call ∧
          x.ComesTo i call.request n o)) ∧
    (∀ (i n : ℕ) (session : Session), n ≤ x.length → (x.state n).sessions[i]? = some session →
      session.state = .cancelled → ∃! j, j < n ∧ x.FindsAt i j) ∧
    (∀ i j, x.FindsAt i j →
      ∃ session, (x.state (j + 1)).sessions[i]? = some session ∧ session.state = .cancelled) ∧
    (∀ j, j < x.length → x.label j = .cancel →
      ((x.state j).cancel.1 = true ↔ ∃ i, x.FindsAt i j)) ∧
    (∀ c j launch, j < x.length → x.label j = .enter c launch →
      (∃ i, x.StartsAt c i j) ∨ ∃ e, x.RefusesAt c e j) ∧
    (∀ c e j, x.RefusesAt c e j →
      (∃ launch call, x.label j = .enter c launch ∧ (x.state (j + 1)).calls[c]? = some call ∧
        (Session.start {} call.request launch).1 = .error e) ∧
      (x.state (j + 1)).current = none ∧
      ∀ (i : ℕ) (session : Session), (x.state (j + 1)).sessions[i]? = some session →
        session.state ≠ .started) ∧
    (∀ (n c : ℕ) (call : Call), n ≤ x.length → (x.state n).calls[c]? = some call →
      (x.state n).CanReturn c) := by
  refine ⟨?_, ?_, ?_, ?_, fun c j launch hj hlabel => starts_or_refuses x hj hlabel, ?_,
    fun n c call hn hc => (coherent_state x hn).canReturn hc⟩
  · intro c i m n o hstarts hreturns
    obtain ⟨call, session, hc, hi, hlaunched, ho⟩ := hstarts.outcome hreturns
    refine ⟨?_, fun hne => ⟨call, hc, comesTo_of_outcome x hreturns.1 hi hlaunched ho hne⟩⟩
    -- the outcome is told from the state, and a session is cancelled by whoever finds it
    have hstate := ((coherent_state x hreturns.1).session hi).state_of_outcome ho
    rw [← Session.finalState_eq_cancelled_iff, ← hstate]
    constructor
    · intro hs
      obtain ⟨j, hjn, hj⟩ := (cancelled_iff x hreturns.1).mp ⟨session, hi, hs⟩
      exact ⟨j, hstarts.lt_of_findsAt hj, hjn, hj⟩
    · rintro ⟨j, -, hjn, hj⟩
      obtain ⟨session', hi', hs'⟩ := (cancelled_iff x hreturns.1).mpr ⟨j, hjn, hj⟩
      obtain rfl := Option.some.inj (hi.symm.trans hi')
      exact hs'
  · intro i n session hn hi hs
    obtain ⟨j, hjn, hj⟩ := (cancelled_iff x hn).mp ⟨session, hi, hs⟩
    exact ⟨j, ⟨hjn, hj⟩, fun k hk => findsAt_unique hk.2 hj⟩
  · rintro i j ⟨hj, henters, hholds, session, hi, hs⟩
    exact cancelled_of_found (moves_run x hj) henters hholds hi hs
  · intro j hj hlabel
    rw [cancel_fst]
    constructor
    · rintro ⟨i, session, hholds, hi, hs⟩
      exact ⟨i, hj, by rw [hlabel]; trivial, hholds, session, hi, hs⟩
    · rintro ⟨i, -, -, hholds, session, hi, hs⟩
      exact ⟨i, session, hholds, hi, hs⟩
  · intro c e j hrefuses
    obtain ⟨hanswer, hempty⟩ := hrefuses.leaves
    refine ⟨hanswer, hempty, fun i session hi hs => ?_⟩
    obtain ⟨id, hheld⟩ := (coherent_state x hrefuses.1).live hi hs
    rw [hempty] at hheld
    cases hheld

/-- A run with three ends: the first call is displaced by one that cannot be launched, the third one
is cancelled, the fourth one is left alone. -/
def threeEnds : Run :=
  Execution.ofLabels step {}
    ([[.call { executable := ⟨[0x2F]⟩ }, .call { executable := ⟨[0x2F]⟩ },
        .call { executable := ⟨[0x2F]⟩ }, .number 0, .number 1, .number 2, .enter 0 (.ok ()),
        .enter 1 (.error .notFound)], killed 0,
      [.wake 0, .leave 0, .enter 2 (.ok ()), .cancel, .cancel], killed 2, [.wake 2, .leave 2],
      [.call { executable := ⟨[0x2F]⟩ }, .number 3, .enter 3 (.ok ())], endsWell 3,
      [.wake 3, .leave 3]] : List (List Action)).flatten
    rfl

/-- Of four calls one is displaced, one is refused, one is cancelled and one comes to its own
end. -/
theorem cancelled_iff_found_threeEnds :
    (∃ j, 6 < j ∧ j < 14 ∧ threeEnds.FindsAt 0 j) ∧ (threeEnds.state 8).current = none ∧
      (∃ i, threeEnds.FindsAt i 15) ∧ (¬ ∃ i, threeEnds.FindsAt i 16) ∧
      threeEnds.ComesTo 3 { executable := ⟨[0x2F]⟩ } 33
        (.ok (.exited { exitCode := 0, stdout := "", stderr := "" })) := by
  obtain ⟨hreturns, -, -, hcancel, -, hrefuses, -⟩ := cancelled_iff_found threeEnds
  have hfirst : threeEnds.StartsAt 0 0 6 := ⟨by decide, ⟨_, rfl⟩, _, _, rfl, rfl⟩
  have hsecond : threeEnds.RefusesAt 1 (.spawn ⟨[0x2F]⟩ .notFound) 7 :=
    ⟨by decide, ⟨_, rfl⟩, _, rfl, rfl⟩
  have hlast : threeEnds.StartsAt 3 3 25 := ⟨by decide, ⟨_, rfl⟩, _, _, rfl, rfl⟩
  have hdisplaced := (hreturns 0 0 6 14 (.ok .cancelled) hfirst ⟨by decide, _, rfl, rfl⟩).1
  obtain ⟨call, hc, hcomes⟩ := (hreturns 3 3 25 33
    (.ok (.exited { exitCode := 0, stdout := "", stderr := "" })) hlast
    ⟨by decide, _, rfl, rfl⟩).2 (by simp)
  obtain rfl := Option.some.inj hc
  refine ⟨hdisplaced.mp rfl, (hrefuses 1 _ 7 hsecond).2.1,
    (hcancel 15 (by decide) rfl).mp rfl, fun hfound => ?_, hcomes⟩
  have htold := (hcancel 16 (by decide) rfl).mpr hfound
  cases htold

end Slot

end SourceFormat.Subprocess
