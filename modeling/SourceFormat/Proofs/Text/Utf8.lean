import Mathlib
import SourceFormat.Text.Utf8

/-!
# Bytes that spell a text

The scan of `Utf8.decode?` and the spelling of `Utf8.encode` are inverse to each other:
`decode?_eq_some_iff` says that a byte string is read as a text exactly if it is the spelling of
that text.  So a text has one spelling only (`encode_injective`).

Both directions go byte by byte.  From the spelling: the bytes of a character, fed to a decoder that
stands between characters, record that character (`feed_encodeChar`).  To the spelling: as long as
nothing is broken, what was fed is the spelling of what was found and the beginning of one more
character (`Decoder.Spelt`), and the byte that completes a character completes its spelling
(`Begun.complete`).
-/

namespace SourceFormat.Utf8

/-! ## First bytes -/

/-- What a first byte begins, by the number of bytes of the character. -/
inductive Lead.Of (b : UInt8) : Lead → Prop where
  | whole (h : b.toNat < 0x80) : Lead.Of b (.whole (Char.ofNat b.toNat))
  | two (h : 0xC2 ≤ b.toNat) (h' : b.toNat ≤ 0xDF) :
      Lead.Of b (.opens 1 0x80 0xBF (b.toNat - 0xC0))
  | three (h : 0xE0 ≤ b.toNat) (h' : b.toNat ≤ 0xEF) :
      Lead.Of b (.opens 2 (if b.toNat = 0xE0 then 0xA0 else 0x80)
        (if b.toNat = 0xED then 0x9F else 0xBF) (b.toNat - 0xE0))
  | four (h : 0xF0 ≤ b.toNat) (h' : b.toNat ≤ 0xF4) :
      Lead.Of b (.opens 3 (if b.toNat = 0xF0 then 0x90 else 0x80)
        (if b.toNat = 0xF4 then 0x8F else 0xBF) (b.toNat - 0xF0))
  | never (h : (0x80 ≤ b.toNat ∧ b.toNat < 0xC2) ∨ 0xF4 < b.toNat) : Lead.Of b .never

/-- Every byte begins what it is said to begin. -/
lemma Lead.of_ofByte (b : UInt8) : Lead.Of b (Lead.ofByte b) := by
  have hE0 : b = 0xE0 ↔ b.toNat = 0xE0 := UInt8.toNat_inj.symm
  have hED : b = 0xED ↔ b.toNat = 0xED := UInt8.toNat_inj.symm
  have hF0 : b = 0xF0 ↔ b.toNat = 0xF0 := UInt8.toNat_inj.symm
  have hF4 : b = 0xF4 ↔ b.toNat = 0xF4 := UInt8.toNat_inj.symm
  unfold Lead.ofByte
  simp only [UInt8.lt_iff_toNat_lt, hE0, hED, hF0, hF4, UInt8.reduceToNat]
  split_ifs with h₁ h₂ h₃ h₄ h₅ h₆ h₇ h₈ h₉
  · exact .whole h₁
  · exact .never (by omega)
  · exact .two (by omega) (by omega)
  · simpa [h₄] using Lead.Of.three (b := b) (by omega) (by omega)
  · simpa [h₅] using Lead.Of.three (b := b) (by omega) (by omega)
  · simpa [h₄, h₅] using Lead.Of.three (b := b) (by omega) (by omega)
  · simpa [h₇] using Lead.Of.four (b := b) (by omega) (by omega)
  · simpa [h₇, show b.toNat ≠ 0xF4 by omega] using Lead.Of.four (b := b) (by omega) (by omega)
  · simpa [h₉] using Lead.Of.four (b := b) (by omega) (by omega)
  · exact .never (by omega)

/-- What a byte begins is one thing only. -/
lemma Lead.Of.ofByte_eq {b : UInt8} {l : Lead} (h : Lead.Of b l) : Lead.ofByte b = l := by
  have h' := Lead.of_ofByte b
  generalize Lead.ofByte b = l' at h'
  cases h <;> cases h' <;> first | rfl | omega

namespace Decoder

variable {d : Decoder} {b : UInt8} {p : Partial}

/-- Between two characters a byte below 0x80 is one of its own. -/
lemma push_whole (hd : d.pending = none) (hb : b.toNat < 0x80) :
    d.push b = d.keep (Char.ofNat b.toNat) := by
  simp [push, hd, start, (Lead.Of.whole hb).ofByte_eq]

/-- Between two characters a first byte begins a character. -/
lemma push_opens (hd : d.pending = none) {left bits : ℕ} {low high : UInt8}
    (hb : Lead.Of b (.opens left low high bits)) :
    d.push b = { d with pending := some ⟨left, low, high, bits⟩ } := by
  simp [push, hd, start, hb.ofByte_eq]

/-- A byte that fits goes on with a character that is not whole yet. -/
lemma push_more (hd : d.pending = some p) (hlow : p.low.toNat ≤ b.toNat)
    (hhigh : b.toNat ≤ p.high.toNat) (hleft : 1 < p.left) :
    d.push b = { d with
      pending := some ⟨p.left - 1, 0x80, 0xBF, p.bits * 64 + (b.toNat - 0x80)⟩ } := by
  simp [push, hd, UInt8.le_iff_toNat_le, hlow, hhigh, not_le.mpr hleft]

/-- The last byte that fits makes a character whole. -/
lemma push_last (hd : d.pending = some p) (hlow : p.low.toNat ≤ b.toNat)
    (hhigh : b.toNat ≤ p.high.toNat) (hleft : p.left ≤ 1) :
    d.push b = d.keep (Char.ofNat (p.bits * 64 + (b.toNat - 0x80))) := by
  simp [push, hd, UInt8.le_iff_toNat_le, hlow, hhigh, hleft]

/-- A byte that does not fit ends a broken character and starts anew. -/
lemma push_stray (hd : d.pending = some p)
    (hb : ¬ (p.low.toNat ≤ b.toNat ∧ b.toNat ≤ p.high.toNat)) :
    d.push b = d.substitute.start b := by
  simp only [push, hd, UInt8.le_iff_toNat_le, if_neg hb]

end Decoder

/-! ## From the spelling -/

/-- No character lies among the surrogates or beyond the last one. -/
lemma toNat_lt_or (c : Char) : c.toNat < 0xD800 ∨ (0xDFFF < c.toNat ∧ c.toNat < 0x110000) :=
  c.valid

/-- A small number is the value of a byte. -/
lemma toNat_ofNat_of_lt {n : ℕ} (h : n < 256) : (UInt8.ofNat n).toNat = n := by
  rw [UInt8.toNat_ofNat', Nat.mod_eq_of_lt h]

/-- The bytes behind the first one carry six bits each. -/
lemma toNat_tail (n : ℕ) : (UInt8.ofNat (n % 0x40 + 0x80)).toNat = n % 0x40 + 0x80 :=
  toNat_ofNat_of_lt (by omega)

/-- The bytes of a character, by their number. -/
inductive Spelling (v : ℕ) : Bytes → Prop where
  | one {a : UInt8} (h : v < 0x80) (ha : a.toNat = v) : Spelling v [a]
  | two {a b : UInt8} (h : 0x80 ≤ v) (h' : v < 0x800) (ha : a.toNat = v / 0x40 + 0xC0)
      (hb : b.toNat = v % 0x40 + 0x80) : Spelling v [a, b]
  | three {a b c : UInt8} (h : 0x800 ≤ v) (h' : v < 0x10000) (ha : a.toNat = v / 0x1000 + 0xE0)
      (hb : b.toNat = v / 0x40 % 0x40 + 0x80) (hc : c.toNat = v % 0x40 + 0x80) :
      Spelling v [a, b, c]
  | four {a b c d : UInt8} (h : 0x10000 ≤ v) (ha : a.toNat = v / 0x40000 + 0xF0)
      (hb : b.toNat = v / 0x1000 % 0x40 + 0x80) (hc : c.toNat = v / 0x40 % 0x40 + 0x80)
      (hd : d.toNat = v % 0x40 + 0x80) : Spelling v [a, b, c, d]

/-- A character is written with a spelling of its number. -/
lemma spelling_encodeChar (c : Char) : Spelling c.toNat (String.utf8EncodeChar c) := by
  have hvalid := toNat_lt_or c
  have hval : c.val.toNat = c.toNat := rfl
  unfold String.utf8EncodeChar
  simp only [hval]
  split_ifs with h₁ h₂ h₃
  · exact .one (by omega) (toNat_ofNat_of_lt (by omega))
  · refine .two (by omega) (by omega) ?_ (toNat_tail _)
    rw [toNat_ofNat_of_lt (by omega)]
    omega
  · refine .three (by omega) (by omega) ?_ (toNat_tail _) (toNat_tail _)
    rw [toNat_ofNat_of_lt (by omega)]
    omega
  · refine .four (by omega) ?_ (toNat_tail _) (toNat_tail _) (toNat_tail _)
    rw [toNat_ofNat_of_lt (by omega)]
    omega

/-- A number has one spelling. -/
lemma Spelling.unique {v : ℕ} {bs bs' : Bytes} (h : Spelling v bs) (h' : Spelling v bs') :
    bs = bs' := by
  cases h <;> cases h' <;> first | omega | simp [← UInt8.toNat_inj, *]

/-- A decoder between two characters that is fed the bytes of a character records it. -/
lemma feed_spelling {d : Decoder} (hd : d.pending = none) {v : ℕ}
    (hv : v < 0xD800 ∨ (0xDFFF < v ∧ v < 0x110000)) {bs : Bytes} (h : Spelling v bs) :
    d.feed bs = d.keep (Char.ofNat v) := by
  unfold Decoder.feed
  cases h with
  | one h ha =>
    rw [List.foldl_cons, Decoder.push_whole hd (by omega), ha]
    rfl
  | two h h' ha hb =>
    rw [List.foldl_cons, Decoder.push_opens hd (.two (by omega) (by omega)), List.foldl_cons,
      Decoder.push_last rfl (by simp; omega) (by simp; omega) le_rfl]
    simp only [Decoder.keep, List.foldl_nil]
    rw [show (_ - 0xC0) * 64 + (_ - 0x80) = v by omega]
  | three h h' ha hb hc =>
    rw [List.foldl_cons, Decoder.push_opens hd (.three (by omega) (by omega)), List.foldl_cons,
      Decoder.push_more rfl (by simp; split_ifs <;> simp <;> omega)
        (by simp; split_ifs <;> simp <;> omega) (by simp), List.foldl_cons,
      Decoder.push_last rfl (by simp; omega) (by simp; omega) le_rfl]
    simp only [Decoder.keep, List.foldl_nil]
    rw [show ((_ - 0xE0) * 64 + (_ - 0x80)) * 64 + (_ - 0x80) = v by omega]
  | four h ha hb hc he =>
    rw [List.foldl_cons, Decoder.push_opens hd (.four (by omega) (by omega)), List.foldl_cons,
      Decoder.push_more rfl (by simp; split_ifs <;> simp <;> omega)
        (by simp; split_ifs <;> simp <;> omega) (by simp), List.foldl_cons,
      Decoder.push_more rfl (by simp; omega) (by simp; omega) (by simp), List.foldl_cons,
      Decoder.push_last rfl (by simp; omega) (by simp; omega) le_rfl]
    simp only [Decoder.keep, List.foldl_nil]
    rw [show (((_ - 0xF0) * 64 + (_ - 0x80)) * 64 + (_ - 0x80)) * 64 + (_ - 0x80) = v by omega]

/-- A decoder that is fed a whole character keeps it. -/
lemma feed_encodeChar {d : Decoder} (hd : d.pending = none) (c : Char) :
    d.feed (String.utf8EncodeChar c) = d.keep c := by
  rw [feed_spelling hd (toNat_lt_or c) (spelling_encodeChar c), Char.ofNat_toNat]

/-- Bytes are fed one after the other. -/
lemma feed_append (d : Decoder) (bs bs' : Bytes) : d.feed (bs ++ bs') = (d.feed bs).feed bs' :=
  List.foldl_append

/-- A decoder between two characters that is fed the spelling of a text records the text. -/
lemma feed_encodeChars {d : Decoder} (hd : d.pending = none) (cs : List Char) :
    d.feed (encodeChars cs) = { d with found := cs.reverse ++ d.found } := by
  induction cs generalizing d with
  | nil => rfl
  | cons c cs ih =>
    rw [encodeChars, List.flatMap_cons, feed_append, feed_encodeChar hd, ← encodeChars, ih rfl]
    simp [Decoder.keep, hd]

/-- Encoded text is decoded to itself. -/
lemma decode?_encode (s : String) : decode? (encode s) = some s := by
  simp [decode?, scan, encode, feed_encodeChars, Decoder.finish]

/-! ## To the spelling -/

/-- The beginning of a character, with what a decoder keeps of it: how many bytes are missing,
between which bounds the next one lies, and the bits read so far. -/
inductive Begun : Bytes → (left : ℕ) → (low high : UInt8) → (bits : ℕ) → Prop where
  | first {b : UInt8} {left bits : ℕ} {low high : UInt8}
      (hb : Lead.Of b (.opens left low high bits)) : Begun [b] left low high bits
  | more {bs : Bytes} {left bits : ℕ} {low high : UInt8} (h : Begun bs left low high bits)
      {b : UInt8} (hlow : low.toNat ≤ b.toNat) (hhigh : b.toNat ≤ high.toNat) (hleft : 1 < left) :
      Begun (bs ++ [b]) (left - 1) 0x80 0xBF (bits * 64 + (b.toNat - 0x80))

/-- Three bytes at most are missing in a character that has begun. -/
lemma Begun.left_le {bs : Bytes} {left bits : ℕ} {low high : UInt8}
    (h : Begun bs left low high bits) : left ≤ 3 := by
  induction h with
  | first hb => cases hb <;> omega
  | more h hlow hhigh hleft ih => omega

/-- A spelling of a character's number is how that character is written. -/
lemma Spelling.eq_encodeChar {v : ℕ} (hv : v < 0xD800 ∨ (0xDFFF < v ∧ v < 0x110000)) {bs : Bytes}
    (h : Spelling v bs) : bs = String.utf8EncodeChar (Char.ofNat v) := by
  have htoNat : (Char.ofNat v).toNat = v := by
    rw [Char.toNat_ofNat, if_pos hv]
  have h' := spelling_encodeChar (Char.ofNat v)
  rw [htoNat] at h'
  exact h.unique h'

/-- The last byte completes the spelling of the character that is recorded. -/
lemma Begun.complete {bs : Bytes} {left bits : ℕ} {low high : UInt8}
    (h : Begun bs left low high bits) {b : UInt8} (hlow : low.toNat ≤ b.toNat)
    (hhigh : b.toNat ≤ high.toNat) (hleft : left ≤ 1) :
    bs ++ [b] = String.utf8EncodeChar (Char.ofNat (bits * 64 + (b.toNat - 0x80))) := by
  -- by the number of bytes that were there before; the bounds of the second one keep the value
  -- out of the shorter spellings, out of the surrogates and below the end
  cases h with
  | first hb =>
    cases hb with
    | two h h' =>
      simp only [UInt8.reduceToNat] at hlow hhigh
      exact Spelling.eq_encodeChar (by omega)
        (.two (by omega) (by omega) (by omega) (by omega))
    | three | four => omega
  | more h hlow₁ hhigh₁ hleft₁ =>
    simp only [UInt8.reduceToNat] at hlow hhigh
    cases h with
    | first hb =>
      cases hb with
      | two => omega
      | three h h' =>
        refine Spelling.eq_encodeChar ?_ (.three ?_ ?_ ?_ ?_ ?_) <;>
          split_ifs at hlow₁ hhigh₁ <;> simp only [UInt8.reduceToNat] at hlow₁ hhigh₁ <;> omega
      | four h h' => omega
    | more h hlow₂ hhigh₂ hleft₂ =>
      cases h with
      | first hb =>
        cases hb with
        | two | three => omega
        | four h h' =>
          simp only [UInt8.reduceToNat] at hlow₁ hhigh₁
          refine Spelling.eq_encodeChar ?_ (.four ?_ ?_ ?_ ?_ ?_) <;>
            split_ifs at hlow₂ hhigh₂ <;> simp only [UInt8.reduceToNat] at hlow₂ hhigh₂ <;> omega
      | more h =>
        have := h.left_le
        omega

namespace Decoder

/-- As long as nothing is broken, what a decoder was fed is the spelling of what it found and the
beginning of one more character. -/
def Spelt (d : Decoder) (bs : Bytes) : Prop :=
  d.broken = false →
    ∃ rest, bs = encodeChars d.found.reverse ++ rest ∧
      (∀ p, d.pending = some p → Begun rest p.left p.low p.high p.bits) ∧
      (d.pending = none → rest = [])

variable {d : Decoder} {bs : Bytes}

/-- A new decoder has been fed nothing. -/
lemma spelt_nil : Spelt {} [] :=
  fun _ => ⟨[], rfl, by simp, by simp⟩

/-- A recorded character stands behind those found before. -/
lemma encodeChars_keep (d : Decoder) (c : Char) :
    encodeChars (d.keep c).found.reverse
      = encodeChars d.found.reverse ++ String.utf8EncodeChar c := by
  simp [keep, encodeChars]

/-- Between two characters the next byte is spelt. -/
lemma Spelt.start (h : d.Spelt bs) (hd : d.pending = none) (b : UInt8) :
    (d.push b).Spelt (bs ++ [b]) := by
  have hb := Lead.of_ofByte b
  have hpush : d.push b = d.start b := by simp [push, hd]
  rw [hpush]
  unfold Decoder.start
  intro hbroken
  generalize Lead.ofByte b = l at hb hbroken ⊢
  cases hb with
  | whole hw =>
    obtain ⟨rest, hbs, -, hrest⟩ := h hbroken
    have hone := Spelling.eq_encodeChar (by omega) (.one hw rfl)
    refine ⟨[], ?_, by simp [keep], by simp⟩
    rw [hbs, hrest hd, encodeChars_keep, ← hone]
    simp
  | two | three | four =>
    obtain ⟨rest, hbs, -, hrest⟩ := h hbroken
    refine ⟨[b], by simp [hbs, hrest hd], ?_, by simp⟩
    rintro p ⟨⟩
    exact .first (by constructor <;> assumption)
  | never => simp [substitute] at hbroken

/-- In the middle of a character the next byte is spelt. -/
lemma Spelt.continue {p : Partial} (h : d.Spelt bs) (hd : d.pending = some p) (b : UInt8) :
    (d.push b).Spelt (bs ++ [b]) := by
  intro hbroken
  by_cases hb : p.low.toNat ≤ b.toNat ∧ b.toNat ≤ p.high.toNat
  · by_cases hleft : p.left ≤ 1
    · rw [push_last hd hb.1 hb.2 hleft] at hbroken ⊢
      obtain ⟨rest, hbs, hbegun, -⟩ := h hbroken
      have hcomplete := (hbegun p hd).complete hb.1 hb.2 hleft
      refine ⟨[], ?_, by simp [keep], by simp⟩
      rw [hbs, encodeChars_keep, ← hcomplete]
      simp
    · rw [push_more hd hb.1 hb.2 (by omega)] at hbroken ⊢
      obtain ⟨rest, hbs, hbegun, -⟩ := h hbroken
      refine ⟨rest ++ [b], by simp [hbs], ?_, by simp⟩
      rintro p' ⟨⟩
      exact (hbegun p hd).more hb.1 hb.2 (by omega)
  · rw [push_stray hd hb] at hbroken
    -- a broken decoder stays broken
    unfold Decoder.start at hbroken
    split at hbroken <;> simp [substitute, keep] at hbroken

/-- The next byte is spelt. -/
lemma Spelt.push (h : d.Spelt bs) (b : UInt8) : (d.push b).Spelt (bs ++ [b]) := by
  cases hd : d.pending with
  | none => exact h.start hd b
  | some p => exact h.continue hd b

/-- Whatever a decoder is fed is spelt. -/
lemma Spelt.feed (h : d.Spelt bs) (bs' : Bytes) : (d.feed bs').Spelt (bs ++ bs') := by
  induction bs' generalizing d bs with
  | nil => simpa [Decoder.feed] using h
  | cons b bs' ih =>
    have := ih (h.push b)
    rwa [List.append_assoc, List.singleton_append] at this

end Decoder

/-- What is decoded to a text is that text encoded. -/
lemma eq_encode_of_decode? {bs : Bytes} {s : String} (h : decode? bs = some s) :
    bs = encode s := by
  have hspelt := Decoder.spelt_nil.feed bs
  simp only [decode?, scan, Decoder.finish] at h
  cases hd : (Decoder.feed {} bs).pending with
  | some p => simp [hd, Decoder.substitute] at h
  | none =>
    simp only [hd, Option.ite_none_left_eq_some, Bool.not_eq_true, Option.some.injEq] at h
    obtain ⟨rest, hbs, -, hrest⟩ := hspelt h.1
    rw [← h.2, encode, String.toList_ofList]
    simpa [hrest hd] using hbs

/-- A byte string is read as a text exactly if it is the spelling of that text. -/
theorem decode?_eq_some_iff {bs : Bytes} {s : String} : decode? bs = some s ↔ bs = encode s :=
  ⟨eq_encode_of_decode?, fun h => h ▸ decode?_encode s⟩

/-- Different texts are encoded differently. -/
theorem encode_injective : Function.Injective encode := by
  intro s t h
  have hs := decode?_encode s
  rw [h, decode?_encode] at hs
  exact (Option.some.inj hs).symm

end SourceFormat.Utf8
