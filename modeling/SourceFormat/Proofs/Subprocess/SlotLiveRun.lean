import Mathlib
import SourceFormat.Proofs.Subprocess.SlotCoherence

/-!
# One running session to a slot

`live_session_is_current`: in every order of the steps of any number of calls, cancellations and
sessions, a session that was started through a slot and is not over is the one in the slot's cell.
So at most one is running.  What is in the cell belongs to the call that started it and has not yet
taken itself out; behind the last call the cell is empty.

The critical section is one step (`Slot.enterWith`), so every state of a run lies outside it.
-/

namespace SourceFormat.Subprocess

namespace Slot

/-- One order of everything that is done to a new slot. -/
abbrev Run := Execution step {}

/-- Step `m` starts session `i` for call `c`. -/
def Run.StartsAt (x : Run) (c i m : ℕ) : Prop :=
  m < x.length ∧ (∃ launch, x.label m = .enter c launch) ∧
    ∃ call id, (x.state (m + 1)).calls[c]? = some call ∧ call.stage = .waiting id i

variable {s s' : Slot}

/-! ## Runs -/

/-- Every step of a run is a move. -/
lemma moves_run (x : Run) {i : ℕ} (hi : i < x.length) :
    Moves (x.state i) (x.label i) (x.state (i + 1)) :=
  moves_of_step (x.next_state i hi)

/-- A slot is in order at every time of a run. -/
lemma coherent_state (x : Run) {i : ℕ} (hi : i ≤ x.length) : (x.state i).Coherent :=
  x.invariant coherent_new (fun _ _ _ h hnext => h.next (moves_of_step hnext)) hi

/-- In a run the next number never falls. -/
lemma nextId_mono (x : Run) {i k : ℕ} (hik : i ≤ k) (hk : k ≤ x.length) :
    (x.state i).nextId ≤ (x.state k).nextId :=
  x.invariant_from (P := fun s => (x.state i).nextId ≤ s.nextId)
    (fun _ _ _ h hnext => h.trans (nextId_le (moves_of_step hnext))) le_rfl hik hk

/-- A call draws its number once: whoever goes by a number that was drawn before some time went by
it at that time. -/
lemma id_before (x : Run) {k n c id : ℕ} {call : Call} (hkn : k ≤ n) (hn : n ≤ x.length)
    (hlt : id < (x.state k).nextId) (hc : (x.state n).calls[c]? = some call)
    (hid : call.stage.id? = some id) :
    ∃ call, (x.state k).calls[c]? = some call ∧ call.stage.id? = some id := by
  induction n, hkn using Nat.le_induction generalizing call with
  | base => exact ⟨call, hc, hid⟩
  | succ n hkn ih =>
    rcases id_origin (moves_run x (by omega)) hc hid with ⟨call', hc', hid'⟩ | ⟨-, rfl, -⟩
    · exact ih (by omega) hc' hid'
    · exact absurd hlt (by have := nextId_mono x hkn (by omega); omega)

/-! ## Numbers -/

/-- Whether a call has drawn its number. -/
def Call.hasDrawn (call : Call) : Bool :=
  match call.stage with
  | .arrived => false
  | _ => true

/-- A call that gets on is counted in the place of the one that it was. -/
lemma countP_hasDrawn_set {calls : List Call} {c : ℕ} {call : Call} (hc : calls[c]? = some call)
    (call' : Call) :
    (calls.set c call').countP Call.hasDrawn + call.hasDrawn.toNat =
      calls.countP Call.hasDrawn + call'.hasDrawn.toNat := by
  obtain ⟨hlt, rfl⟩ := List.getElem?_eq_some_iff.mp hc
  have hpos : calls[c].hasDrawn = true → 0 < calls.countP Call.hasDrawn := fun hp =>
    List.countP_pos_iff.mpr ⟨calls[c], List.getElem_mem hlt, hp⟩
  rw [List.countP_set hlt]
  cases hp : calls[c].hasDrawn <;> cases call'.hasDrawn <;> simp
  all_goals
    have := hpos hp
    omega

/-- A call that gets on with its number has been counted. -/
lemma countP_hasDrawn_set_of_drawn {calls : List Call} {c : ℕ} {call : Call} {stage : Stage}
    (hc : calls[c]? = some call) (hs : call.stage ≠ .arrived) (hs' : stage ≠ .arrived) :
    (calls.set c { call with stage }).countP Call.hasDrawn = calls.countP Call.hasDrawn := by
  have hset := countP_hasDrawn_set hc { call with stage }
  have hdrawn : ∀ call : Call, call.stage ≠ .arrived → call.hasDrawn = true := fun _ hs => by
    unfold Call.hasDrawn
    split
    · exact absurd ‹_› hs
    · rfl
  rw [hdrawn call hs, hdrawn { call with stage } hs'] at hset
  omega

/-- The counter counts the calls that have drawn. -/
lemma nextId_eq_next {a : Action} (h : s.nextId = s.calls.countP Call.hasDrawn)
    (hm : Moves s a s') : s'.nextId = s'.calls.countP Call.hasDrawn := by
  cases hm with
  | call r => simp [Slot.call, h, Call.hasDrawn]
  | @number c call hc hs =>
    have hset := countP_hasDrawn_set hc { call with stage := .numbered s.nextId }
    simp only [Call.hasDrawn, hs, Bool.toNat_false, Bool.toNat_true] at hset
    simp only [moveTo_calls, moveTo_nextId]
    omega
  | refuse hc hs | start hc hs | wake hc hs | leaveOwn hc hs | leaveOther hc hs =>
    simp [h, countP_hasDrawn_set_of_drawn hc, hs]
  | cancel => simp [h]
  | session => exact h

/-- No more numbers are drawn than calls are made, so a counter of 64 bits would do for fewer than
2^64 calls. -/
theorem nextId_le_length (x : Run) {n : ℕ} (hn : n ≤ x.length) :
    (x.state n).nextId ≤ (x.state n).calls.length := by
  have hcount := x.invariant (P := fun s => s.nextId = s.calls.countP Call.hasDrawn) (by simp)
    (fun _ _ _ h hnext => nextId_eq_next h (moves_of_step hnext)) hn
  rw [hcount]
  exact List.countP_le_length

/-! ## Started sessions -/

/-- Behind its start a session is running for the request of its call, and in the cell. -/
lemma Run.StartsAt.started {x : Run} {c i m : ℕ} (h : x.StartsAt c i m) :
    i = (x.state m).sessions.length ∧ ∃ call id launch,
      (x.state (m + 1)).calls[c]? = some call ∧ call.stage = .waiting id i ∧
      (x.state (m + 1)).current = some (id, i) ∧
      (x.state (m + 1)).sessions[i]? = some (Session.start {} call.request launch).2 ∧
      (Session.start {} call.request launch).1 = .ok () := by
  obtain ⟨hm, ⟨launch, hlabel⟩, call, id, hc, hs⟩ := h
  have hmoves := moves_run x hm
  rw [hlabel] at hmoves
  generalize hs' : x.state (m + 1) = s' at hmoves hc ⊢
  cases hmoves with
  | refuse hc' _ _ =>
    have hlt := (List.getElem?_eq_some_iff.mp hc').1
    obtain rfl : _ = call := by simpa [hlt] using hc
    cases hs
  | start hc' _ hr =>
    have hlt := (List.getElem?_eq_some_iff.mp hc').1
    obtain rfl : _ = call := by simpa [hlt] using hc
    cases hs
    refine ⟨rfl, _, _, launch, hc, rfl, rfl, ?_, by rw [hr]⟩
    rw [hr, moveTo_sessions, ← cancel_sessions_length, List.getElem?_concat_length]

/-- A session that was started stays in the slot, for the request of its call. -/
lemma Run.StartsAt.launched {x : Run} {c i m n : ℕ} (h : x.StartsAt c i m) (hmn : m < n)
    (hn : n ≤ x.length) : ∃ call session, (x.state (m + 1)).calls[c]? = some call ∧
      (x.state n).sessions[i]? = some session ∧ session.Launched call.request := by
  obtain ⟨-, call, id, launch, hc, -, -, hi, hr⟩ := h.started
  obtain ⟨session, hi', hlaunched⟩ := x.invariant_from
    (P := fun s => ∃ session, s.sessions[i]? = some session ∧ session.Launched call.request)
    (fun _ _ _ h hnext => launched_next (moves_of_step hnext) h)
    ⟨_, hi, Session.launched_start hr⟩ hmn hn
  exact ⟨call, session, hc, hi', hlaunched⟩

/-! ## The cell -/

/-- What is in the cell was put there by the call that started it. -/
lemma exists_starts (x : Run) {n id i : ℕ} (hn : n ≤ x.length)
    (hcurrent : (x.state n).current = some (id, i)) :
    ∃ c m call, m < n ∧ x.StartsAt c i m ∧ (x.state (m + 1)).calls[c]? = some call ∧
      call.stage = .waiting id i := by
  have h₀ : ¬ (x.state 0).current = some (id, i) := by simp [x.state_zero]
  obtain ⟨m, -, hmn, hbefore, hafter⟩ := Execution.exists_step
    (P := fun n => (x.state n).current = some (id, i)) (Nat.zero_le n) h₀ hcurrent
  have hm : m < x.length := by omega
  have hmoves := moves_run x hm
  generalize hs' : x.state (m + 1) = s' at hmoves hafter
  generalize ha : x.label m = a at hmoves
  cases hmoves with
  | call | number | wake | leaveOther | session => exact absurd hafter hbefore
  | refuse | leaveOwn | cancel => simp at hafter
  | @start c id' call launch session hc hs hr =>
    cases hafter
    have hlt := (List.getElem?_eq_some_iff.mp hc).1
    have hc' : (x.state (m + 1)).calls[c]? =
        some { call with stage := .waiting id (x.state m).sessions.length } := by
      simp [hs', hlt]
    exact ⟨c, m, _, hmn, ⟨hm, ⟨launch, ha⟩, _, id, hc', rfl⟩, hc', rfl⟩

/-- **The running session is the current one.** In every order of the steps of any number of calls,
cancellations and sessions: a session that was started through the slot is over, or it is running
and in the cell.  So at most one is running.  What is in the cell was started by a call that has
not yet taken itself out, and when every call has returned the slot is not busy. -/
theorem live_session_is_current (x : Run) :
    (∀ c i m n, x.StartsAt c i m → m < n → n ≤ x.length →
      ∃ session, (x.state n).sessions[i]? = some session ∧
        (session.state.isTerminal = true ∨
          (session.state = .started ∧ (x.state n).Holds i))) ∧
    (∀ (n i j : ℕ) (session session' : Session), n ≤ x.length →
      (x.state n).sessions[i]? = some session → session.state = .started →
      (x.state n).sessions[j]? = some session' → session'.state = .started → i = j) ∧
    (∀ n id i, n ≤ x.length → (x.state n).current = some (id, i) →
      ∃ c m call, m < n ∧ x.StartsAt c i m ∧ (x.state n).calls[c]? = some call ∧
        (call.stage = .waiting id i ∨ ∃ o, call.stage = .leaving id o)) ∧
    (∀ n, n ≤ x.length →
      (∀ (c : ℕ) (call : Call), (x.state n).calls[c]? = some call → call.outcome?.isSome) →
      (x.state n).isBusy = false) := by
  refine ⟨?_, ?_, ?_, ?_⟩
  · intro c i m n h hmn hn
    obtain ⟨_, session, -, hi, hlaunched⟩ := h.launched hmn hn
    refine ⟨session, hi, ?_⟩
    cases hs : session.state with
    | created => exact absurd hs hlaunched.state
    | started => exact .inr ⟨rfl, (coherent_state x hn).live hi hs⟩
    | terminated | cancelled => exact .inl rfl
  · intro n i j session session' hn hi hs hj hs'
    obtain ⟨id, hholds⟩ := (coherent_state x hn).live hi hs
    obtain ⟨id', hholds'⟩ := (coherent_state x hn).live hj hs'
    exact (Prod.mk.inj (Option.some.inj (hholds.symm.trans hholds'))).2
  · intro n id i hn hcurrent
    obtain ⟨c, m, call, hmn, hstarts, hc, hs⟩ := exists_starts x hn hcurrent
    obtain ⟨d, call', _, hd, -, hstage⟩ := (coherent_state x hn).held hcurrent
    have hid' : call'.stage.id? = some id := by
      rcases hstage with hs' | ⟨o, hs', -⟩
      · exact id?_of_waiting hs'
      · exact id?_of_leaving hs'
    -- the call that is there now went by its number when the session was started
    have hcoherent := coherent_state x (i := m + 1) (by omega)
    have hdrawn := hcoherent.drawn hc (id?_of_waiting hs)
    obtain ⟨call'', hd', hid''⟩ := id_before x (k := m + 1) hmn hn hdrawn hd hid'
    obtain rfl := hcoherent.apart hc hd' (id?_of_waiting hs) hid''
    exact ⟨c, m, call', hmn, hstarts, hd, hstage.imp_right fun ⟨o, hs', _⟩ => ⟨o, hs'⟩⟩
  · intro n hn hreturned
    by_contra hbusy
    rw [Bool.not_eq_false] at hbusy
    obtain ⟨⟨id, i⟩, hcurrent⟩ := Option.isSome_iff_exists.mp hbusy
    obtain ⟨c, call, _, hc, -, hstage⟩ := (coherent_state x hn).held hcurrent
    have hout := hreturned c call hc
    rcases hstage with hs | ⟨o, hs, -⟩ <;> simp [Call.outcome?, hs] at hout

/-- What the session of a process that ends well goes through. -/
def endsWell (i : ℕ) : List Action :=
  [.session i .processEnds, .session i .noticeEnd,
    .session i (.collect (.exited { exitCode := 0, stdout := "", stderr := "" })),
    .session i .conclude, .session i .deliver]

/-- What a session goes through that was cancelled. -/
def killed (i : ℕ) : List Action :=
  [.session i .signal, .session i .noticeCancel, .session i .processEnds, .session i .reap]

/-- A run in which the first call leaves when the second one is in the cell already, and the third
one takes the second out without being launched. -/
def lateLeave : Run :=
  Execution.ofLabels step {}
    ([[.call { executable := ⟨[0x2F]⟩ }, .call { executable := ⟨[0x2F]⟩ },
        .call { executable := ⟨[0x2F]⟩ }, .number 0, .number 1, .number 2, .enter 0 (.ok ())],
      endsWell 0, [.wake 0, .enter 1 (.ok ()), .leave 0, .enter 2 (.error .notFound)], killed 1,
      [.wake 1, .leave 1]] : List (List Action)).flatten
    rfl

/-- A first call that leaves late takes neither the session of the second nor its place. -/
theorem live_session_is_current_lateLeave :
    (lateLeave.state 15).Holds 1 ∧
      (∃ c m call, m < 15 ∧ lateLeave.StartsAt c 1 m ∧ (lateLeave.state 15).calls[c]? = some call ∧
        (call.stage = .waiting 1 1 ∨ ∃ o, call.stage = .leaving 1 o)) ∧
      (lateLeave.state 22).isBusy = false := by
  obtain ⟨hlive, -, hcell, hfree⟩ := live_session_is_current lateLeave
  have hstarts : lateLeave.StartsAt 1 1 13 := ⟨by decide, ⟨_, rfl⟩, _, _, rfl, rfl⟩
  obtain ⟨session, hi, hover | ⟨-, hholds⟩⟩ := hlive 1 1 13 15 hstarts (by decide) (by decide)
  · obtain rfl := Option.some.inj hi
    cases hover
  · refine ⟨hholds, hcell 15 1 1 (by decide) rfl, hfree 22 (by decide) fun c call hc => ?_⟩
    match c with
    | 0 | 1 | 2 =>
      obtain rfl := Option.some.inj hc
      rfl
    | _ + 3 => cases hc

end Slot

end SourceFormat.Subprocess
