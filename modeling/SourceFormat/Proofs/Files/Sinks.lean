import Mathlib
import SourceFormat.Files.Sink

/-!
# What a sink takes

What a sink has taken of what it was offered and what it has left make it up, one behind the other
(`held_offerAll_append_left`), in however many calls it took it; it takes no more than there is room
for (`fills_offerAll`), and everything if there is room (`offerAll_of_hasRoom`).
-/

namespace SourceFormat

namespace Sink

/-! ## What is offered to a sink -/

/-- What a sink has taken and what it has left, one behind the other, are what it held and what it
was offered. -/
lemma held_offer_append_left (fuel : ℕ) : ∀ (s : Sink) (bs : Bytes),
    (offer fuel s bs).2.held ++ (offer fuel s bs).1 = s.held ++ bs := by
  induction fuel with
  | zero => exact fun s bs => rfl
  | succ fuel ih =>
    intro s bs
    simp only [offer]
    split_ifs with hempty hrefused
    · rfl
    · simp [hrefused]
    · rw [ih, List.append_assoc, List.take_append_drop]

/-- What a sink holds and what it has not taken is what it held and what it was offered. -/
lemma held_offerAll_append_left (s : Sink) (bs : Bytes) :
    (s.offerAll bs).2.held ++ (s.offerAll bs).1 = s.held ++ bs :=
  held_offer_append_left _ s bs

/-- There is room for so many more bytes. -/
def HasRoom (s : Sink) (n : ℕ) : Prop := ∀ room, s.room = some room → s.held.length + n ≤ room

/-- A sink that holds nothing does not hold too much. -/
lemma hasRoom_zero {s : Sink} (h : s.held = []) : s.HasRoom 0 := by
  intro room _
  rw [h, List.length_nil]
  exact Nat.zero_le room

/-- The second sink is the first one, with more in it, and not with more than there is room for. -/
structure Fills (s s' : Sink) : Prop where
  room : s'.room = s.room
  refusal : s'.refusal = s.refusal
  within : s.HasRoom 0 → s'.HasRoom 0

/-- A sink fills itself by nothing. -/
lemma Fills.refl (s : Sink) : Fills s s := ⟨rfl, rfl, id⟩

/-- What has been filled twice has been filled. -/
lemma Fills.trans {s s' s'' : Sink} (h : Fills s s') (h' : Fills s' s'') : Fills s s'' :=
  ⟨h'.room.trans h.room, h'.refusal.trans h.refusal, h'.within ∘ h.within⟩

/-- A sink takes no more than there is room for. -/
lemma accepts_le {s : Sink} {room : ℕ} (h : s.room = some room) (n : ℕ) :
    s.accepts n ≤ room - s.held.length := by
  have hfitting : s.fitting n ≤ room - s.held.length := by
    rw [fitting, h]
    exact Nat.min_le_right _ _
  exact (Nat.min_le_left _ _).trans hfitting

/-- A sink with room for what it is offered takes at least one byte of it. -/
lemma accepts_pos {s : Sink} {n : ℕ} (h : s.HasRoom n) (hn : 0 < n) : 0 < s.accepts n := by
  have hfitting : s.fitting n = n := by
    unfold fitting
    split
    · rfl
    · rename_i room hroom
      have := h room hroom
      omega
  simp only [accepts, hfitting, if_true]
  omega

/-- One call. -/
lemma fills_call (s : Sink) (bs : Bytes) : Fills s
    { s with held := s.held ++ bs.take (s.accepts bs.length), calls := s.calls + 1 } where
  room := rfl
  refusal := rfl
  within h room hroom := by
    have hheld := h room hroom
    have haccepts : s.accepts bs.length ≤ room - s.held.length :=
      accepts_le (s := s) hroom _
    simp only [List.length_append, List.length_take]
    omega

/-- What is offered fills the sink, in however many pieces it is taken. -/
lemma fills_offer (fuel : ℕ) : ∀ (s : Sink) (bs : Bytes), Fills s (offer fuel s bs).2 := by
  induction fuel with
  | zero => exact fun s bs => .refl s
  | succ fuel ih =>
    intro s bs
    simp only [offer]
    split_ifs
    · exact .refl s
    · exact fills_call s bs
    · exact (fills_call s bs).trans (ih _ _)

/-- What is offered fills the sink. -/
lemma fills_offerAll (s : Sink) (bs : Bytes) : Fills s (s.offerAll bs).2 := fills_offer _ s bs

/-- What there is room for is taken to its end. -/
lemma offer_of_hasRoom {fuel : ℕ} {s : Sink} {bs : Bytes} (h : s.HasRoom bs.length)
    (hfuel : bs.length ≤ fuel) : (offer fuel s bs).1 = [] := by
  induction fuel generalizing s bs with
  | zero => exact List.length_eq_zero_iff.mp (Nat.le_zero.mp hfuel)
  | succ fuel ih =>
    simp only [offer]
    split_ifs with hempty hrefused
    · exact List.isEmpty_iff.mp hempty
    · have hpos : 0 < bs.length := List.length_pos_iff.mpr (by simpa using hempty)
      exact absurd hrefused (accepts_pos h hpos).ne'
    · refine ih (fun room hroom => ?_) (by simp only [List.length_drop]; omega)
      have := h room hroom
      simp only [List.length_append, List.length_take, List.length_drop]
      omega

/-- What there is room for is taken whole. -/
lemma offerAll_of_hasRoom {s : Sink} {bs : Bytes} (h : s.HasRoom bs.length) :
    (s.offerAll bs).1 = [] :=
  offer_of_hasRoom h le_rfl

/-- A success is reported if nothing is left. -/
lemma report_eq_ok_iff {s : Sink} {left : Bytes} {text : String} :
    s.report left text = .ok () ↔ left = [] := by
  rw [report, ← List.isEmpty_iff]
  split_ifs with h <;> simp [h]

end Sink

end SourceFormat
