import Mathlib
import SourceFormat.Proofs.Subprocess.SlotDisplacement

/-!
# The two orders of the calls of a slot

A call draws its number before it enters the critical section, and other calls may do both in
between.  So the calls of a slot stand in two orders, that of their numbers and that of their
entries, and the two need not agree.

* `Run.DrawsAt`, `Run.EntersAt`: the two steps.  Every call takes each of them once at most, in this
  order.
* `Run.SupersedesAt`: a call ends the running session of another one.
* `superseded_by_later_entry`: it is the order of the entries that decides.  The number is the mark
  by which a call knows its own entry in the cell, and nobody compares two numbers by size.
* `older_run_supersedes`: so a call that was held up behind its number ends the run of one that drew
  a greater number and entered before it.
-/

namespace SourceFormat.Subprocess

namespace Slot

/-- In step `k` call `c` draws the number `id`. -/
def Run.DrawsAt (x : Run) (c id k : ℕ) : Prop :=
  k < x.length ∧ x.label k = .number c ∧ (x.state k).nextId = id

/-- In step `m` call `c` goes through the critical section. -/
def Run.EntersAt (x : Run) (c m : ℕ) : Prop :=
  m < x.length ∧ ∃ launch, x.label m = .enter c launch

/-- In step `j` call `d` goes through the critical section and ends the running session of call
`c`. -/
def Run.SupersedesAt (x : Run) (d c j : ℕ) : Prop :=
  x.EntersAt d j ∧ ∃ i m, x.StartsAt c i m ∧
    (∃ session, (x.state j).sessions[i]? = some session ∧ session.state = .started) ∧
    ∃ session, (x.state (j + 1)).sessions[i]? = some session ∧ session.state = .cancelled

/-! ## Every step of a call once -/

/-- How far a call has come. -/
def Stage.position : Stage → ℕ
  | arrived => 0
  | numbered _ => 1
  | waiting _ _ => 2
  | leaving _ _ => 3
  | returned _ => 4

variable {s s' : Slot} {a : Action}

/-- A call that gets on gets further. -/
lemma Call.Advances.position_lt {c : ℕ} {call call' : Call} (h : call.Advances s s' c a call') :
    call.stage.position < call'.stage.position := by
  cases h with
  | number hs | refuse hs | start hs | wake hs | leave hs => simp [hs, Stage.position]

/-- No call goes back. -/
lemma position_next (hm : Moves s a s') {c p : ℕ}
    (h : ∃ call, s.calls[c]? = some call ∧ p ≤ call.stage.position) :
    ∃ call, s'.calls[c]? = some call ∧ p ≤ call.stage.position := by
  obtain ⟨call, hc, hp⟩ := h
  cases callMoves hm c with
  | stays hsame => exact ⟨call, hsame.trans hc, hp⟩
  | arrives _ hnone =>
    rw [hc] at hnone
    cases hnone
  | advances hc' hc'' hadv =>
    obtain rfl := Option.some.inj (hc.symm.trans hc')
    exact ⟨_, hc'', hp.trans hadv.position_lt.le⟩

/-- In step `i` call `c` leaves this position behind. -/
def Run.PassesAt (x : Run) (c p i : ℕ) : Prop :=
  i < x.length ∧ (∃ call, (x.state i).calls[c]? = some call ∧ call.stage.position = p) ∧
    ∃ call, (x.state (i + 1)).calls[c]? = some call ∧ p + 1 ≤ call.stage.position

/-- A call that has passed one position is behind it. -/
lemma Run.PassesAt.position_lt {x : Run} {c p q i j : ℕ} (hi : x.PassesAt c p i)
    (hj : x.PassesAt c q j) (hij : i < j) : p < q := by
  obtain ⟨call, hc, hp⟩ := x.invariant_from
    (P := fun s => ∃ call, s.calls[c]? = some call ∧ p + 1 ≤ call.stage.position)
    (fun _ _ _ h hnext => position_next (moves_of_step hnext) h) hi.2.2 hij hj.1.le
  obtain ⟨call', hc', rfl⟩ := hj.2.1
  obtain rfl := Option.some.inj (hc.symm.trans hc')
  exact hp

/-- A call passes each position once. -/
lemma Run.PassesAt.unique {x : Run} {c p i j : ℕ} (hi : x.PassesAt c p i) (hj : x.PassesAt c p j) :
    i = j := by
  rcases lt_trichotomy i j with h | h | h
  · exact absurd (hi.position_lt hj h) (lt_irrefl p)
  · exact h
  · exact absurd (hj.position_lt hi h) (lt_irrefl p)

/-- A call that draws a number has just arrived, and the next number is one more. -/
lemma Run.DrawsAt.calls {x : Run} {c id k : ℕ} (h : x.DrawsAt c id k) :
    (∃ call, (x.state k).calls[c]? = some call ∧ call.stage = .arrived) ∧
      (∃ call, (x.state (k + 1)).calls[c]? = some call ∧ call.stage = .numbered id) ∧
      (x.state (k + 1)).nextId = id + 1 := by
  obtain ⟨hk, hlabel, rfl⟩ := h
  have hmoves := moves_run x hk
  rw [hlabel] at hmoves
  generalize x.state (k + 1) = s' at hmoves ⊢
  cases hmoves with
  | number hc hs => exact ⟨⟨_, hc, hs⟩, ⟨_, getElem?_moveTo _ _ hc, rfl⟩, rfl⟩

/-- A call that enters has its number, and is past it then. -/
lemma Run.EntersAt.calls {x : Run} {c m : ℕ} (h : x.EntersAt c m) :
    (∃ call id, (x.state m).calls[c]? = some call ∧ call.stage = .numbered id) ∧
      ∃ call, (x.state (m + 1)).calls[c]? = some call ∧ 2 ≤ call.stage.position := by
  obtain ⟨hm, launch, hlabel⟩ := h
  have hmoves := moves_run x hm
  rw [hlabel] at hmoves
  generalize x.state (m + 1) = s' at hmoves ⊢
  cases hmoves with
  | refuse hc hs | start hc hs =>
    exact ⟨⟨_, _, hc, hs⟩, _, getElem?_moveTo _ _ (by simpa using hc), by simp [Stage.position]⟩

/-- To draw a number is to pass the first position. -/
lemma Run.DrawsAt.passesAt {x : Run} {c id k : ℕ} (h : x.DrawsAt c id k) : x.PassesAt c 0 k := by
  obtain ⟨⟨call, hc, hs⟩, ⟨call', hc', hs'⟩, -⟩ := h.calls
  exact ⟨h.1, ⟨call, hc, by rw [hs]; rfl⟩, call', hc', by rw [hs']; exact le_rfl⟩

/-- To enter is to pass the second position. -/
lemma Run.EntersAt.passesAt {x : Run} {c m : ℕ} (h : x.EntersAt c m) : x.PassesAt c 1 m := by
  obtain ⟨⟨call, id, hc, hs⟩, call', hc', hs'⟩ := h.calls
  exact ⟨h.1, ⟨call, hc, by rw [hs]; rfl⟩, call', hc', hs'⟩

/-- A call that enters has drawn its number before, and has drawn no other. -/
lemma Run.EntersAt.exists_draws {x : Run} {c m : ℕ} (h : x.EntersAt c m) :
    ∃ id k, k < m ∧ x.DrawsAt c id k ∧ ∀ id' k', x.DrawsAt c id' k' → id' = id ∧ k' = k := by
  obtain ⟨⟨call, id, hc, hs⟩, -⟩ := h.calls
  let P := fun n => ∃ call, (x.state n).calls[c]? = some call ∧ call.stage.id? = some id
  have h₀ : ¬ P 0 := by simp [P, x.state_zero]
  obtain ⟨k, -, hkm, hk, call', hc', hid⟩ :=
    Execution.exists_step (P := P) (Nat.zero_le m) h₀ ⟨call, hc, by rw [hs]; rfl⟩
  have hlt : k < x.length := hkm.trans h.1
  rcases id_origin (moves_run x hlt) hc' hid with hbefore | ⟨hlabel, hid', -⟩
  · exact absurd hbefore hk
  · have hdraws : x.DrawsAt c id k := ⟨hlt, hlabel, hid'.symm⟩
    refine ⟨id, k, hkm, hdraws, fun id' k' h' => ?_⟩
    obtain rfl := h'.passesAt.unique hdraws.passesAt
    exact ⟨h'.2.2.symm.trans hdraws.2.2, rfl⟩

/-- Numbers are drawn in their order. -/
lemma Run.DrawsAt.lt {x : Run} {c d id id' k k' : ℕ} (h : x.DrawsAt c id k)
    (h' : x.DrawsAt d id' k') (hkk : k < k') : id < id' := by
  calc id < (x.state (k + 1)).nextId := by rw [h.calls.2.2]; exact Nat.lt_succ_self id
    _ ≤ (x.state k').nextId := nextId_mono x hkk h'.1.le
    _ = id' := h'.2.2

/-- The numbers are in the order in which they are drawn. -/
lemma Run.DrawsAt.lt_iff {x : Run} {c d id id' k k' : ℕ} (h : x.DrawsAt c id k)
    (h' : x.DrawsAt d id' k') : id < id' ↔ k < k' := by
  refine ⟨fun hid => ?_, h.lt h'⟩
  rcases lt_trichotomy k k' with hkk | rfl | hkk
  · exact hkk
  · exact absurd (h.2.2.symm.trans h'.2.2) hid.ne
  · exact absurd (h'.lt h hkk) hid.asymm

/-! ## Who ends whose run -/

/-- To start a session is to enter. -/
lemma Run.StartsAt.entersAt {x : Run} {c i m : ℕ} (h : x.StartsAt c i m) : x.EntersAt c m :=
  ⟨h.1, h.2.1⟩

/-- Who ends the run of a call has entered behind it. -/
lemma Run.SupersedesAt.exists_enters {x : Run} {c d j : ℕ} (h : x.SupersedesAt d c j) :
    d ≠ c ∧ ∃ m, m < j ∧ x.EntersAt c m := by
  obtain ⟨henters, i, m, hstarts, ⟨session, hi, hs⟩, -⟩ := h
  have hfinds : x.FindsAt i j := by
    obtain ⟨hj, launch, hlabel⟩ := henters
    exact ⟨hj, by rw [hlabel]; trivial, (coherent_state x hj.le).live hi hs, session, hi, hs⟩
  have hmj := hstarts.lt_of_findsAt hfinds
  refine ⟨?_, m, hmj, hstarts.entersAt⟩
  rintro rfl
  exact hmj.ne (hstarts.entersAt.passesAt.unique henters.passesAt)

/-- A call with the smaller number was held up behind it, while the other call did both steps. -/
lemma Run.SupersedesAt.overtaken {x : Run} {c d id id' j k k' : ℕ} (h : x.SupersedesAt d c j)
    (hc : x.DrawsAt c id k) (hd : x.DrawsAt d id' k') :
    id < id' ∨ k' < k ∧ ∃ m, k < m ∧ m < j ∧ x.EntersAt c m := by
  obtain ⟨hne, m, hmj, hm⟩ := h.exists_enters
  obtain ⟨_, _, hkm, -, hunique⟩ := hm.exists_draws
  obtain ⟨-, rfl⟩ := hunique id k hc
  rcases lt_trichotomy k k' with hkk | rfl | hkk
  · exact .inl (hc.lt hd hkk)
  · exact absurd (Action.number.inj (hd.2.1.symm.trans hc.2.1)) hne
  · exact .inr ⟨hkk, m, hkm, hmj, hm⟩

/-- **Later entries win.** In every order of the steps of any number of calls, cancellations and
sessions: every call that enters has drawn one number before, and the numbers are in the order in
which they were drawn.  A call that ends the run of another one has entered behind it, so the call
that enters last is not superseded by anybody.  The number of the one that ends the run is the
greater one, unless it was drawn before the other one's and the other call has overtaken its owner.
-/
theorem superseded_by_later_entry (x : Run) :
    (∀ c m, x.EntersAt c m → ∃ id k, k < m ∧ x.DrawsAt c id k ∧
      ∀ id' k', x.DrawsAt c id' k' → id' = id ∧ k' = k) ∧
    (∀ c d id id' k k', x.DrawsAt c id k → x.DrawsAt d id' k' → (id < id' ↔ k < k')) ∧
    (∀ c d j m, x.SupersedesAt d c j → x.EntersAt c m → d ≠ c ∧ m < j) ∧
    (∀ c m, x.EntersAt c m → (∀ d m', x.EntersAt d m' → m' ≤ m) →
      ∀ d j, ¬ x.SupersedesAt d c j) ∧
    (∀ c d id id' j k k', x.SupersedesAt d c j → x.DrawsAt c id k → x.DrawsAt d id' k' →
      id < id' ∨ k' < k ∧ ∃ m, k < m ∧ m < j ∧ x.EntersAt c m) := by
  have hbehind : ∀ c d j m, x.SupersedesAt d c j → x.EntersAt c m → d ≠ c ∧ m < j := by
    intro c d j m h hm
    obtain ⟨hne, m', hmj, hm'⟩ := h.exists_enters
    obtain rfl := hm.passesAt.unique hm'.passesAt
    exact ⟨hne, hmj⟩
  refine ⟨?_, ?_, hbehind, ?_, ?_⟩
  · intro c m hm
    exact hm.exists_draws
  · intro c d id id' k k' hc hd
    exact hc.lt_iff hd
  · intro c m hm hlast d j h
    have hmj := (hbehind c d j m h hm).2
    exact absurd (hlast d j h.1) (not_le.mpr hmj)
  · intro c d id id' j k k' h hc hd
    exact h.overtaken hc hd

/-- A run in which the first call draws its number, and enters when the second one has done both. -/
def heldUpBehindNumber : Run :=
  Execution.ofLabels step {}
    ([[.call { executable := ⟨[0x2F]⟩ }, .call { executable := ⟨[0x2F]⟩ }, .number 0, .number 1,
        .enter 1 (.ok ()), .enter 0 (.ok ())], killed 0, [.wake 1, .leave 1]] :
      List (List Action)).flatten
    rfl

/-- In the example the first call draws the smaller number, and ends the session of the second. -/
lemma heldUpBehindNumber_steps :
    heldUpBehindNumber.DrawsAt 0 0 2 ∧ heldUpBehindNumber.DrawsAt 1 1 3 ∧
      heldUpBehindNumber.SupersedesAt 0 1 5 :=
  ⟨⟨by decide, rfl, rfl⟩, ⟨by decide, rfl, rfl⟩, ⟨by decide, _, rfl⟩, 0, 4,
    ⟨by decide, ⟨_, rfl⟩, _, _, rfl, rfl⟩, ⟨_, rfl, rfl⟩, _, rfl, rfl⟩

/-- In the example the call that ends the other one has entered later, although its number is
smaller. -/
theorem superseded_by_later_entry_heldUpBehindNumber :
    heldUpBehindNumber.SupersedesAt 0 1 5 ∧ 4 < 5 ∧
      (∃ m, 3 < m ∧ m < 5 ∧ heldUpBehindNumber.EntersAt 1 m) ∧
      ∀ d j, ¬ heldUpBehindNumber.SupersedesAt d 0 j := by
  obtain ⟨-, horder, hbehind, hlast, hovertaken⟩ := superseded_by_later_entry heldUpBehindNumber
  obtain ⟨hfirst, hsecond, hsupersedes⟩ := heldUpBehindNumber_steps
  refine ⟨hsupersedes, (hbehind 1 0 5 4 hsupersedes ⟨by decide, _, rfl⟩).2, ?_,
    hlast 0 5 ⟨by decide, _, rfl⟩ ?_⟩
  · have hnot : ¬ 1 < 0 := (horder 1 0 1 0 3 2 hsecond hfirst).not.mpr (by decide)
    exact ((hovertaken 1 0 1 0 5 3 2 hsupersedes hsecond hfirst).resolve_left hnot).2
  · rintro d m ⟨hm, launch, hlabel⟩
    have hm' : m < 12 := hm
    interval_cases m <;> first | omega | cases hlabel

/-- The order of the numbers does not decide: the call with the greatest number is superseded by one
that has drawn a smaller number, and comes to `cancelled`. -/
theorem older_run_supersedes :
    heldUpBehindNumber.DrawsAt 0 0 2 ∧ heldUpBehindNumber.DrawsAt 1 1 3 ∧
      (∀ c id k, heldUpBehindNumber.DrawsAt c id k → id ≤ 1) ∧
      heldUpBehindNumber.SupersedesAt 0 1 5 ∧
      heldUpBehindNumber.Returns 1 12 (.ok .cancelled) ∧
      ¬ ∀ (x : Run) (c d id id' j k k' : ℕ), x.SupersedesAt d c j → x.DrawsAt c id k →
        x.DrawsAt d id' k' → id < id' := by
  obtain ⟨hfirst, hsecond, hsupersedes⟩ := heldUpBehindNumber_steps
  refine ⟨hfirst, hsecond, ?_, hsupersedes, ⟨by decide, _, rfl, rfl⟩, fun h => ?_⟩
  · rintro c id k ⟨hk, hlabel, rfl⟩
    have hk' : k < 12 := hk
    interval_cases k <;> first | decide | cases hlabel
  · exact absurd (h heldUpBehindNumber 1 0 1 0 5 3 2 hsupersedes hsecond hfirst) (by decide)

end Slot

end SourceFormat.Subprocess
