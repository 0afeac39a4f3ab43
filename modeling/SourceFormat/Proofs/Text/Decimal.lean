import Mathlib
import SourceFormat.Text.Digit

/-!
# Decimal numbers as they are written and read

`number?_eq_some_iff` says which texts are read as a number: runs of ASCII digits, leading zeros
allowed, and the number is the value of the digits.  So what is written in decimal notation is read
back, whatever the number (`number?_repr`), and so is an integer with its sign
(`integer?_toString`).
-/

namespace SourceFormat.Text

/-- An ASCII digit is a digit of the decimal notation. -/
lemma isDigit_iff_bounds {c : Char} : c.isDigit = true ↔ '0' ≤ c ∧ c ≤ '9' := by
  rw [Char.isDigit, Bool.and_eq_true, decide_eq_true_eq, decide_eq_true_eq]
  rfl

/-- A number that is not behind the first range is in the ranges if it is in that one. -/
lemma CharRanges.holds_cons_of_le {first last n : ℕ} {rest : CharRanges} (h : n ≤ last) :
    CharRanges.holds ((first, last) :: rest) n = decide (first ≤ n) := by
  rw [CharRanges.holds, if_pos h]

/-- The ASCII digits are decimal digits. -/
lemma isDigit_of_ascii {c : Char} (h : c.isDigit = true) : isDigit c = true := by
  obtain ⟨hlow, hhigh⟩ := isDigit_iff_bounds.mp h
  unfold isDigit digitRanges
  rw [CharRanges.holds_cons_of_le (show c.toNat ≤ 0x39 from hhigh)]
  exact decide_eq_true (show 0x30 ≤ c.toNat from hlow)

/-- A digit has its value. -/
lemma digitValue?_of_isDigit {c : Char} (h : c.isDigit = true) :
    digitValue? c = some (c.toNat - '0'.toNat) := by
  rw [digitValue?, if_pos (isDigit_iff_bounds.mp h)]

/-- What is no digit has no value. -/
lemma digitValue?_of_not_isDigit {c : Char} (h : ¬ c.isDigit = true) : digitValue? c = none := by
  rw [digitValue?, if_neg (mt isDigit_iff_bounds.mpr h)]

/-- Reading on behind digits whose value is `start`. -/
lemma foldlM_digitValue? {cs : List Char} {start n : ℕ} :
    cs.foldlM (fun n c => (digitValue? c).map (n * 10 + ·)) start = some n ↔
      (∀ c ∈ cs, c.isDigit = true) ∧ Nat.ofDigitChars 10 cs start = n := by
  induction cs generalizing start with
  | nil => simp
  | cons c cs ih =>
    rw [List.foldlM_cons, List.forall_mem_cons, Nat.ofDigitChars_cons]
    by_cases hc : c.isDigit = true
    · rw [digitValue?_of_isDigit hc, Option.map_some, Option.bind_eq_bind, Option.bind_some, ih,
        Nat.mul_comm start 10, and_assoc]
      exact (and_iff_right hc).symm
    · rw [digitValue?_of_not_isDigit hc]
      simp [hc]

/-- A text is read as a number exactly if it is a run of ASCII digits with that value. -/
lemma number?_eq_some_iff {cs : List Char} {n : ℕ} :
    number? cs = some n ↔
      cs ≠ [] ∧ (∀ c ∈ cs, c.isDigit = true) ∧ Nat.ofDigitChars 10 cs 0 = n := by
  unfold number?
  split
  next h => simp [List.isEmpty_iff.mp h]
  next h =>
    rw [foldlM_digitValue?]
    exact (and_iff_right (mt List.isEmpty_iff.mpr h)).symm

/-- What is written in decimal notation is read back. -/
lemma number?_repr (n : ℕ) : number? n.repr.toList = some n := by
  rw [Nat.toList_repr, number?_eq_some_iff]
  refine ⟨Nat.toDigits_ne_nil, ?_, Nat.ofDigitChars_ten_toDigits⟩
  intro c hc
  exact Nat.isDigit_of_mem_toDigits (by omega) (by omega) hc

/-- The integer that a text spells in decimal notation, behind a hyphen if it is negative. -/
def integer? : List Char → Option ℤ
  | '-' :: digits => (number? digits).map (-Int.ofNat ·)
  | digits => (number? digits).map Int.ofNat

/-- The notation of a number is read as that number. -/
lemma integer?_repr (n : ℕ) : integer? n.repr.toList = some (n : ℤ) := by
  have hsign : ∀ digits, n.repr.toList ≠ '-' :: digits := by
    intro digits h
    have hdigit := (number?_eq_some_iff.mp (number?_repr n)).2.1 '-' (by simp [h])
    cases hdigit
  unfold integer?
  split
  next digits h => exact absurd h (hsign digits)
  next => rw [number?_repr, Option.map_some, Int.ofNat_eq_natCast]

/-- Every integer is read back as it is written. -/
lemma integer?_toString (i : ℤ) : integer? (toString i).toList = some i := by
  rw [Int.toString_eq_repr, Int.repr_eq_if]
  split
  next h => rw [integer?_repr, Int.toNat_of_nonneg h]
  next h =>
    have hsign : ("-" ++ (-i).toNat.repr).toList = '-' :: (-i).toNat.repr.toList := by
      rw [String.toList_append]
      rfl
    rw [hsign, integer?, number?_repr, Option.map_some, Int.ofNat_eq_natCast,
      Int.toNat_of_nonneg (by omega), neg_neg]

end SourceFormat.Text
