import Mathlib
import SourceFormat.Proofs.Subprocess.SlotTurns

/-!
# The parts of a slot fit together

`Coherent` ties the cell of a slot to its calls and to the states of all sessions that were ever
started through it.  What carries it is that the cell is emptied before anything else is done in the
critical section, and that a call takes itself out only behind its own outcome: so at no time is
there a running session that the cell does not know.

A session that ends by itself does so outside the critical section.  That does no harm, since it
only ever makes fewer sessions run.
-/

namespace SourceFormat.Subprocess

namespace Slot

variable {s s' : Slot} {a : Action}

/-! ## Sessions go on -/

/-- A session that is there stays there, and keeps what every turn of a session keeps. -/
lemma session_keeps {P : Session → Prop}
    (hP : ∀ session turn session', P session → Session.next session turn = some session' →
      P session')
    (hm : Moves s a s') {i : ℕ} {session : Session} (hi : s.sessions[i]? = some session)
    (h : P session) : ∃ session', s'.sessions[i]? = some session' ∧ P session' := by
  cases sessionMoves hm i with
  | stays hsame => exact ⟨session, hsame.trans hi, h⟩
  | begins _ _ _ hlen =>
    rw [List.getElem?_eq_none (by omega)] at hi
    cases hi
  | takenOut _ _ hi' h' =>
    obtain rfl := Option.some.inj (hi.symm.trans hi')
    exact ⟨_, h', hP _ .cancel _ h rfl⟩
  | happens _ hi' h' hstep =>
    obtain rfl := Option.some.inj (hi.symm.trans hi')
    exact ⟨_, h', hP _ (.event _) _ h hstep⟩

/-- A session that is there was there before, or is made by this step. -/
lemma session_origin (hm : Moves s a s') {i : ℕ} {session' : Session}
    (hi' : s'.sessions[i]? = some session') :
    (∃ session, s.sessions[i]? = some session ∧
      (session' = session ∨ ∃ turn, session.next turn = some session')) ∨
    (i = s.sessions.length ∧ ∃ r launch, session' = (Session.start {} r launch).2) := by
  cases sessionMoves hm i with
  | stays hsame => exact .inl ⟨session', hsame ▸ hi', .inl rfl⟩
  | begins _ _ _ hlen h' =>
    exact .inr ⟨hlen, _, _, Option.some.inj (hi'.symm.trans h')⟩
  | takenOut _ _ hi h' =>
    exact .inl ⟨_, hi, .inr ⟨.cancel, h'.symm.trans hi'⟩⟩
  | happens _ hi h' hstep =>
    obtain rfl := Option.some.inj (hi'.symm.trans h')
    exact .inl ⟨_, hi, .inr ⟨.event _, hstep⟩⟩

/-- No session is ever dropped. -/
lemma sessions_length_le (hm : Moves s a s') : s.sessions.length ≤ s'.sessions.length := by
  cases hm <;> simp [Slot.call]

/-! ## Coherence -/

/-- A call with this number waits for the session, or has its outcome and is about to leave. -/
def Owned (s : Slot) (id i : ℕ) : Prop :=
  ∃ (c : ℕ) (call : Call) (session : Session), s.calls[c]? = some call ∧
    s.sessions[i]? = some session ∧
      (call.stage = .waiting id i ∨ ∃ o, call.stage = .leaving id o ∧ session.outcome? = some o)

/-- The parts of a slot agree. -/
structure Coherent (s : Slot) : Prop where
  session : ∀ {i : ℕ} {session : Session}, s.sessions[i]? = some session → session.Coherent
  /-- Every number in use has been drawn. -/
  drawn : ∀ {c id : ℕ} {call : Call}, s.calls[c]? = some call → call.stage.id? = some id →
    id < s.nextId
  /-- No two calls go by one number. -/
  apart : ∀ {c d id : ℕ} {call call' : Call}, s.calls[c]? = some call → s.calls[d]? = some call' →
    call.stage.id? = some id → call'.stage.id? = some id → c = d
  /-- A call waits for a session that was started for its request. -/
  waits : ∀ {c id i : ℕ} {call : Call}, s.calls[c]? = some call → call.stage = .waiting id i →
    ∃ session, s.sessions[i]? = some session ∧ session.Launched call.request
  /-- The current run is the one of a call that has still to take it out. -/
  held : ∀ {id i : ℕ}, s.current = some (id, i) → s.Owned id i
  /-- A session that is running is the one of the current run. -/
  live : ∀ {i : ℕ} {session : Session}, s.sessions[i]? = some session →
    session.state = .started → s.Holds i

/-- A new slot is in order. -/
lemma coherent_new : Coherent {} := by
  constructor <;> simp

/-- Behind every step the sessions are in order themselves. -/
lemma Coherent.session_next (h : s.Coherent) (hm : Moves s a s') {i : ℕ} {session' : Session}
    (hi' : s'.sessions[i]? = some session') : session'.Coherent := by
  rcases session_origin hm hi' with ⟨session, hi, rfl | ⟨turn, hnext⟩⟩ | ⟨-, r, launch, rfl⟩
  · exact h.session hi
  · exact (h.session hi).next hnext
  · exact Session.coherent_default.start rfl

/-- No number is given out twice. -/
lemma nextId_le (hm : Moves s a s') : s.nextId ≤ s'.nextId := by
  cases hm <;> simp [Slot.call]

/-- A number in use was in use before, or has just been drawn. -/
lemma id_origin (hm : Moves s a s') {c id : ℕ} {call' : Call} (hc' : s'.calls[c]? = some call')
    (hid : call'.stage.id? = some id) :
    (∃ call, s.calls[c]? = some call ∧ call.stage.id? = some id) ∨
      (a = .number c ∧ id = s.nextId ∧ s'.nextId = s.nextId + 1) := by
  cases callMoves hm c with
  | stays hsame => exact .inl ⟨call', hsame ▸ hc', hid⟩
  | arrives r _ hc =>
    obtain rfl := Option.some.inj (hc.symm.trans hc')
    cases hid
  | advances hc hc'' hadv =>
    obtain rfl := Option.some.inj (hc''.symm.trans hc')
    exact (hadv.id_eq hid).imp_left fun hid => ⟨_, hc, hid⟩

/-- Behind every step the numbers of the calls have been drawn. -/
lemma Coherent.drawn_next (h : s.Coherent) (hm : Moves s a s') {c id : ℕ} {call' : Call}
    (hc' : s'.calls[c]? = some call') (hid : call'.stage.id? = some id) : id < s'.nextId := by
  rcases id_origin hm hc' hid with ⟨call, hc, hid⟩ | ⟨-, rfl, hn⟩
  · exact (h.drawn hc hid).trans_le (nextId_le hm)
  · omega

/-- Behind every step two calls have different numbers. -/
lemma Coherent.apart_next (h : s.Coherent) (hm : Moves s a s') {c d id : ℕ} {call call' : Call}
    (hc : s'.calls[c]? = some call) (hd : s'.calls[d]? = some call')
    (hid : call.stage.id? = some id) (hid' : call'.stage.id? = some id) : c = d := by
  rcases id_origin hm hc hid with ⟨call₀, hc₀, hid₀⟩ | ⟨ha, heq, -⟩ <;>
    rcases id_origin hm hd hid' with ⟨call₁, hd₁, hid₁⟩ | ⟨ha', heq', -⟩
  · exact h.apart hc₀ hd₁ hid₀ hid₁
  · exact absurd (h.drawn hc₀ hid₀) (by omega)
  · exact absurd (h.drawn hd₁ hid₁) (by omega)
  · exact Action.number.inj (ha.symm.trans ha')

/-- A session that was launched stays there, and stays launched. -/
lemma launched_next (hm : Moves s a s') {i : ℕ} {r : Request}
    (h : ∃ session, s.sessions[i]? = some session ∧ session.Launched r) :
    ∃ session, s'.sessions[i]? = some session ∧ session.Launched r := by
  obtain ⟨session, hi, hlaunched⟩ := h
  exact session_keeps (fun _ _ _ h hnext => h.next hnext) hm hi hlaunched

/-- Behind every step a call that waits has a session, launched for its request. -/
lemma Coherent.waits_next (h : s.Coherent) (hm : Moves s a s') {c id i : ℕ} {call' : Call}
    (hc' : s'.calls[c]? = some call') (hs' : call'.stage = .waiting id i) :
    ∃ session, s'.sessions[i]? = some session ∧ session.Launched call'.request := by
  cases callMoves hm c with
  | stays hsame => exact launched_next hm (h.waits (hsame ▸ hc') hs')
  | arrives r _ hc =>
    obtain rfl := Option.some.inj (hc.symm.trans hc')
    cases hs'
  | advances hc hc'' hadv =>
    obtain rfl := Option.some.inj (hc''.symm.trans hc')
    cases hadv with
    | start hs hr hnew =>
      cases hs'
      exact ⟨_, hnew, Session.launched_start hr⟩
    | number | refuse | wake | leave => cases hs'

/-! ### The current run -/

/-- A call that waits has its number. -/
lemma id?_of_waiting {stage : Stage} {id i : ℕ} (hs : stage = .waiting id i) :
    stage.id? = some id := by
  rw [hs]
  rfl

/-- A call that is about to leave has its number. -/
lemma id?_of_leaving {stage : Stage} {id : ℕ} {o : Except RunError Outcome}
    (hs : stage = .leaving id o) : stage.id? = some id := by
  rw [hs]
  rfl

/-- Whoever holds the cell goes by the number in it. -/
lemma Coherent.held_by (h : s.Coherent) {c id i : ℕ} {call : Call}
    (hcurrent : s.current = some (id, i)) (hc : s.calls[c]? = some call)
    (hid : call.stage.id? = some id) : ∃ session, s.sessions[i]? = some session ∧
      (call.stage = .waiting id i ∨ ∃ o, call.stage = .leaving id o ∧ session.outcome? = some o) := by
  obtain ⟨d, call', session, hd, hi, hstage⟩ := h.held hcurrent
  have hid' : call'.stage.id? = some id := by
    rcases hstage with hs | ⟨o, hs, -⟩
    · exact id?_of_waiting hs
    · exact id?_of_leaving hs
  obtain rfl := h.apart hc hd hid hid'
  obtain rfl := Option.some.inj (hc.symm.trans hd)
  exact ⟨session, hi, hstage⟩

/-- An outcome is there to stay. -/
lemma Coherent.outcome_next (h : s.Coherent) (hm : Moves s a s') {i : ℕ} {session : Session}
    {o : Except RunError Outcome} (hi : s.sessions[i]? = some session)
    (ho : session.outcome? = some o) :
    ∃ session', s'.sessions[i]? = some session' ∧ session'.outcome? = some o := by
  obtain ⟨session', hi', -, ho'⟩ := session_keeps
    (P := fun session => session.Coherent ∧ session.outcome? = some o)
    (fun _ _ _ h hnext => ⟨h.1.next hnext, h.1.outcome_next h.2 hnext⟩) hm hi ⟨h.session hi, ho⟩
  exact ⟨session', hi', ho'⟩

/-- A holder that takes no step of its own goes on holding the cell, as long as that stays. -/
lemma Coherent.held_of_stays (h : s.Coherent) (hm : Moves s a s') {id i : ℕ}
    (hcurrent : s.current = some (id, i))
    (hstays : ∀ (c : ℕ) (call : Call), s.calls[c]? = some call → call.stage.id? = some id →
      s'.calls[c]? = some call) : s'.Owned id i := by
  obtain ⟨c, call, session, hc, hi, hs | ⟨o, hs, ho⟩⟩ := h.held hcurrent
  · obtain ⟨session', hi', -⟩ :=
      session_keeps (P := fun _ => True) (fun _ _ _ _ _ => trivial) hm hi trivial
    exact ⟨c, call, session', hstays c call hc (id?_of_waiting hs), hi', .inl hs⟩
  · obtain ⟨session', hi', ho'⟩ := h.outcome_next hm hi ho
    exact ⟨c, call, session', hstays c call hc (id?_of_leaving hs), hi', .inr ⟨o, hs, ho'⟩⟩

/-- Behind every step what the slot holds belongs to a call. -/
lemma Coherent.held_next (h : s.Coherent) (hm : Moves s a s') {id i : ℕ}
    (hcurrent' : s'.current = some (id, i)) : s'.Owned id i := by
  -- a call other than the one that takes the step stays where it is
  have hother : ∀ {c c' : ℕ} {call call' : Call} {stage : Stage},
      s.calls[c]? = some call → c' ≠ c → s.calls[c']? = some call' →
        (s.calls.set c { call with stage })[c']? = some call' := fun _ hne hc' => by
    rw [List.getElem?_set_ne hne.symm, hc']
  cases hm with
  | call r =>
    refine h.held_of_stays (.call r) hcurrent' fun c call hc _ => ?_
    exact (List.getElem?_append_left (List.getElem?_eq_some_iff.mp hc).1).trans hc
  | number hc hs =>
    refine h.held_of_stays (.number hc hs) hcurrent' fun c' call' hc' hid => hother hc ?_ hc'
    rintro rfl
    rw [← Option.some.inj (hc.symm.trans hc'), hs] at hid
    cases hid
  | refuse | leaveOwn | cancel => simp at hcurrent'
  | @start c id call launch session hc hs hr =>
    cases hcurrent'
    have hlt := (List.getElem?_eq_some_iff.mp hc).1
    refine ⟨c, { call with stage := .waiting id s.sessions.length }, session, by simp [hlt], ?_,
      .inl rfl⟩
    rw [moveTo_sessions, ← cancel_sessions_length, List.getElem?_concat_length]
  | @wake c id' i' call session o hc hs hi ho =>
    by_cases hid : id' = id
    · subst hid
      obtain ⟨session', hi', hstage⟩ := h.held_by hcurrent' hc (id?_of_waiting hs)
      have hlt := (List.getElem?_eq_some_iff.mp hc).1
      rcases hstage with hs' | ⟨o', hs', -⟩
      · obtain rfl := (Stage.waiting.inj (hs.symm.trans hs')).2
        exact ⟨c, { call with stage := .leaving id' o }, session, by simp [hlt], hi,
          .inr ⟨o, rfl, ho⟩⟩
      · cases hs.symm.trans hs'
    · refine h.held_of_stays (.wake hc hs hi ho) hcurrent' fun c' call' hc' hid' =>
        hother hc ?_ hc'
      rintro rfl
      rw [← Option.some.inj (hc.symm.trans hc'), hs] at hid'
      exact hid (Option.some.inj hid')
  | leaveOther hc hs hnot =>
    refine h.held_of_stays (.leaveOther hc hs hnot) hcurrent' fun c' call' hc' hid =>
      hother hc ?_ hc'
    rintro rfl
    rw [← Option.some.inj (hc.symm.trans hc'), hs] at hid
    exact hnot i (by rw [← Option.some.inj hid] at hcurrent'; exact hcurrent')
  | session hi hstep =>
    exact h.held_of_stays (.session hi hstep) hcurrent' fun _ _ hc _ => hc

/-! ### Running sessions -/

/-- What is in a list with something added at its end. -/
lemma getElem?_concat {α : Type*} {l : List α} {x y : α} {i : ℕ} (h : (l ++ [x])[i]? = some y) :
    l[i]? = some y ∨ (i = l.length ∧ x = y) := by
  rcases lt_trichotomy i l.length with hlt | rfl | hgt
  · exact .inl (by rwa [List.getElem?_append_left hlt] at h)
  · exact .inr ⟨rfl, by simpa using h⟩
  · rw [List.getElem?_eq_none (by simp; omega)] at h
    cases h

/-- Once the current run is taken out, nothing is running. -/
lemma Coherent.not_started_of_cancel (h : s.Coherent) {i : ℕ} {session : Session}
    (hi : s.cancel.2.sessions[i]? = some session) : session.state ≠ .started := by
  intro hs
  by_cases hh : s.Holds i
  · rw [getElem?_cancel_of_holds hh] at hi
    obtain ⟨before, -, rfl⟩ := Option.map_eq_some_iff.mp hi
    by_cases hb : before.state = .started
    · simp [Session.cancel_of_started hb] at hs
    · simp [Session.cancel_of_not_started hb, hb] at hs
  · rw [getElem?_cancel_of_not_holds hh] at hi
    exact hh (h.live hi hs)

/-- Behind every step a session that runs is the one that the slot holds. -/
lemma Coherent.live_next (h : s.Coherent) (hm : Moves s a s') {i : ℕ} {session : Session}
    (hi : s'.sessions[i]? = some session) (hs : session.state = .started) : s'.Holds i := by
  cases hm with
  | call | number | wake | leaveOther => exact h.live hi hs
  | @refuse c id call launch e new hc hstage hr =>
    rcases getElem?_concat hi with hold | ⟨-, rfl⟩
    · exact absurd hs (h.not_started_of_cancel hold)
    · exact absurd hs (Session.start_error_state_ne (by simp) hr)
  | @start c id call launch new hc hstage hr =>
    rcases getElem?_concat hi with hold | ⟨hlen, -⟩
    · exact absurd hs (h.not_started_of_cancel hold)
    · rw [cancel_sessions_length] at hlen
      exact ⟨id, by rw [hlen]; rfl⟩
  | @leaveOwn c id k call o hc hstage hcurrent =>
    -- the call that leaves has the outcome of its session, which is therefore over
    obtain ⟨id', hheld⟩ := h.live hi hs
    obtain ⟨rfl, rfl⟩ := Prod.mk.inj (Option.some.inj (hcurrent.symm.trans hheld))
    obtain ⟨session', hi', hw | ⟨o', -, ho'⟩⟩ := h.held_by hcurrent hc (id?_of_leaving hstage)
    · cases hstage.symm.trans hw
    · obtain rfl := Option.some.inj (hi.symm.trans hi')
      have hterminal := Session.finalState_isTerminal o'
      rw [← (h.session hi).state_of_outcome ho', hs] at hterminal
      cases hterminal
  | cancel => exact absurd hs (h.not_started_of_cancel hi)
  | @session k e before after hk hstep =>
    by_cases hik : i = k
    · subst hik
      have hlt := (List.getElem?_eq_some_iff.mp hk).1
      obtain rfl : after = session := by simpa [hlt] using hi
      exact h.live hk (Session.started_of_step hstep hs)
    · rw [List.getElem?_set_ne (Ne.symm hik)] at hi
      exact h.live hi hs

/-- Every step of a slot keeps its parts together. -/
theorem Coherent.next (h : s.Coherent) (hm : Moves s a s') : s'.Coherent where
  session := h.session_next hm
  drawn := h.drawn_next hm
  apart := h.apart_next hm
  waits := h.waits_next hm
  held := h.held_next hm
  live := h.live_next hm

end Slot

end SourceFormat.Subprocess
