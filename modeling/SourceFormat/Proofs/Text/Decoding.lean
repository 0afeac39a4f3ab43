import Mathlib
import SourceFormat.Proofs.Text.Utf8
import SourceFormat.Subprocess.Collection

/-!
# Bytes that spell no text

What a process writes may be anything, and it is read as a text all the same.  `Reads` says how,
without a machine: from the left, every well-formed character is kept, and where none stands, one
U+FFFD takes the place of the longest beginning of a character that is there, or of a single byte
(`IsBroken`).

`decode_eq_iff`: this is what the scan comes to, on every byte string; so nothing is left open by
the description.  `streamText_eq_iff` says the same of a captured stream, which is scanned only if
it is no text as it stands.

A scan in the middle of a character holds a beginning of one (`Begun`), and such a beginning is
broken off exactly by a byte that no character has there: a scan that goes on to the end of a
character has met nothing broken (`broken_of_begins`).
-/

namespace SourceFormat.Utf8

/-! ## Reading without a machine -/

/-- A well-formed character, or the beginning of one. -/
def Begins (bs : Bytes) : Prop := ∃ c, bs <+: String.utf8EncodeChar c

/-- A maximal broken piece, with what follows it.  No well-formed character stands there; the piece
is the longest beginning of one that does, or a single byte where there is no such beginning. -/
structure IsBroken (piece rest : Bytes) : Prop where
  noChar : ∀ c, ¬ String.utf8EncodeChar c <+: piece ++ rest
  nonempty : piece ≠ []
  begins : Begins piece ∨ piece.length = 1
  longest : ∀ bs, Begins bs → bs <+: piece ++ rest → bs.length ≤ piece.length

/-- What a byte string is read as. -/
inductive Reads : Bytes → List Char → Prop
  | nil : Reads [] []
  | char (c : Char) {rest : Bytes} {cs : List Char} (h : Reads rest cs) :
      Reads (String.utf8EncodeChar c ++ rest) (c :: cs)
  | broken {piece rest : Bytes} {cs : List Char} (hpiece : IsBroken piece rest)
      (h : Reads rest cs) : Reads (piece ++ rest) ('\uFFFD' :: cs)

/-- No character is written with no bytes. -/
lemma encodeChar_ne_nil (c : Char) : String.utf8EncodeChar c ≠ [] := by
  have h := spelling_encodeChar c
  intro hnil
  rw [hnil] at h
  cases h

/-! ## What a scan has met stays met -/

namespace Decoder

variable {d : Decoder}

/-- A byte that begins a character leaves what was found before. -/
lemma found_start (d : Decoder) (b : UInt8) : d.found <:+ (d.start b).found := by
  unfold start
  split
  · exact List.suffix_cons _ _
  · exact List.suffix_rfl
  · exact List.suffix_cons _ _

/-- A byte that begins a character mends nothing. -/
lemma broken_start (h : d.broken = true) (b : UInt8) : (d.start b).broken = true := by
  unfold start
  split
  · exact h
  · exact h
  · rfl

/-- A byte leaves what was found before. -/
lemma found_push (d : Decoder) (b : UInt8) : d.found <:+ (d.push b).found := by
  unfold push
  split
  · exact found_start d b
  · dsimp only
    split_ifs
    · exact List.suffix_cons _ _
    · exact List.suffix_rfl
    · exact (List.suffix_cons _ _).trans (found_start d.substitute b)

/-- A byte mends nothing that is broken. -/
lemma broken_push (h : d.broken = true) (b : UInt8) : (d.push b).broken = true := by
  unfold push
  split
  · exact broken_start h b
  · dsimp only
    split_ifs
    · exact h
    · exact h
    · exact broken_start rfl b

/-- Bytes leave what was found before. -/
lemma found_feed (d : Decoder) (bs : Bytes) : d.found <:+ (d.feed bs).found := by
  induction bs generalizing d with
  | nil => exact List.suffix_rfl
  | cons b bs ih => exact (found_push d b).trans (ih (d.push b))

/-- Bytes mend nothing that is broken. -/
lemma broken_feed (h : d.broken = true) (bs : Bytes) : (d.feed bs).broken = true := by
  induction bs generalizing d with
  | nil => exact h
  | cons b bs ih => exact ih (broken_push h b)

end Decoder

/-- A scan that is on its way through a character has met nothing broken. -/
lemma broken_of_begins {bs : Bytes} (h : Begins bs) : (Decoder.feed {} bs).broken = false := by
  obtain ⟨c, rest, hc⟩ := h
  by_contra hbroken
  rw [Bool.not_eq_false] at hbroken
  have hfed := feed_encodeChar (d := {}) rfl c
  rw [← hc, feed_append] at hfed
  have hstays := Decoder.broken_feed hbroken rest
  rw [hfed] at hstays
  cases hstays

/-- Of two characters at one place one is the other. -/
lemma eq_of_encodeChar_begins {c c' : Char}
    (h : String.utf8EncodeChar c <+: String.utf8EncodeChar c') : c = c' := by
  obtain ⟨rest, hc⟩ := h
  have hfed := feed_encodeChar (d := {}) rfl c'
  rw [← hc, feed_append, feed_encodeChar rfl] at hfed
  have hfound := Decoder.found_feed (Decoder.keep {} c) rest
  rw [hfed] at hfound
  simpa [Decoder.keep, List.suffix_cons_iff] using hfound

/-! ## Beginnings -/

namespace Begun

variable {bs : Bytes} {left bits : ℕ} {low high : UInt8}

/-- What a scan keeps of a beginning. -/
lemma feed_eq (h : Begun bs left low high bits) :
    Decoder.feed {} bs = { pending := some ⟨left, low, high, bits⟩ } := by
  induction h with
  | first hb => exact Decoder.push_opens (d := {}) rfl hb
  | @more bs left bits low high _ b hlow hhigh hleft ih =>
    rw [feed_append, ih]
    exact Decoder.push_more (d := { pending := some ⟨left, low, high, bits⟩ }) rfl hlow hhigh hleft

/-- A character has begun with a byte. -/
lemma nonempty (h : Begun bs left low high bits) : bs ≠ [] := by
  cases h <;> simp

/-- There is a byte with which a character that has begun can go on. -/
lemma low_le (h : Begun bs left low high bits) : low.toNat ≤ high.toNat := by
  cases h with
  | first hb =>
    cases hb with
    | two => decide
    | three | four => split_ifs <;> first | decide | omega
  | more => decide

/-- Every beginning can be brought to its end. -/
lemma begins (h : Begun bs left low high bits) : Begins bs := by
  induction left using Nat.strong_induction_on generalizing bs low high bits with
  | _ left ih =>
    by_cases hleft : left ≤ 1
    · exact ⟨_, _, h.complete le_rfl h.low_le hleft⟩
    · obtain ⟨c, hc⟩ := ih (left - 1) (by omega) (h.more le_rfl h.low_le (by omega))
      exact ⟨c, (List.prefix_append _ _).trans hc⟩

/-- No character ends in the middle of one. -/
lemma noChar (h : Begun bs left low high bits) (c : Char) : ¬ String.utf8EncodeChar c <+: bs := by
  rintro ⟨rest, hc⟩
  have hfed := h.feed_eq
  rw [← hc, feed_append, feed_encodeChar rfl] at hfed
  have hfound := Decoder.found_feed (Decoder.keep {} c) rest
  rw [hfed] at hfound
  simp [Decoder.keep] at hfound

/-- A byte that does not continue a beginning breaks it off. -/
lemma isBroken (h : Begun bs left low high bits) {rest : Bytes}
    (hrest : ∀ b, rest.head? = some b → ¬ (low.toNat ≤ b.toNat ∧ b.toNat ≤ high.toNat)) :
    IsBroken bs rest := by
  have hlongest : ∀ bs', Begins bs' → bs' <+: bs ++ rest → bs'.length ≤ bs.length := by
    intro bs' hbegins hprefix
    by_contra hlong
    -- it would have to go on with the byte behind the piece
    cases rest with
    | nil => exact hlong (by simpa using hprefix.length_le)
    | cons b rest =>
      have hmore : bs ++ [b] <+: bs' := by
        refine List.prefix_of_prefix_length_le ⟨rest, by simp⟩ hprefix ?_
        simp only [List.length_append, List.length_singleton]
        omega
      obtain ⟨c, hc⟩ := hbegins
      have hunbroken := broken_of_begins ⟨c, hmore.trans hc⟩
      rw [feed_append, h.feed_eq] at hunbroken
      have hpush := Decoder.push_stray (d := { pending := some ⟨left, low, high, bits⟩ }) rfl
        (hrest b rfl)
      rw [Decoder.feed, List.foldl_cons, List.foldl_nil, hpush,
        Decoder.broken_start rfl] at hunbroken
      cases hunbroken
  refine ⟨fun c hc => ?_, h.nonempty, .inl h.begins, hlongest⟩
  exact h.noChar c (List.prefix_of_prefix_length_le hc (List.prefix_append _ _)
    (hlongest _ ⟨c, List.prefix_rfl⟩ hc))

end Begun

/-- A byte with which no character begins is a broken piece of its own. -/
lemma isBroken_of_never {b : UInt8} (hb : Lead.ofByte b = .never) (rest : Bytes) :
    IsBroken [b] rest := by
  have hnone : ∀ bs, Begins bs → bs <+: b :: rest → bs = [] := by
    rintro (_ | ⟨b', bs⟩) ⟨c, hc⟩ hprefix
    · rfl
    · obtain rfl := (List.cons_prefix_cons.mp hprefix).1
      have hbegins : Begins [b'] :=
        ⟨c, (List.cons_prefix_cons.mpr ⟨rfl, List.nil_prefix⟩).trans hc⟩
      have hunbroken := broken_of_begins hbegins
      simp [Decoder.feed, Decoder.push, Decoder.start, hb, Decoder.substitute] at hunbroken
  exact ⟨fun c hc => encodeChar_ne_nil c (hnone _ ⟨c, List.prefix_rfl⟩ hc), by simp, .inr rfl,
    fun bs hbegins hprefix => by simp [hnone bs hbegins hprefix]⟩

/-! ## The scan reads -/

/-- What a scan between two characters does with the next byte. -/
lemma start_cases (b : UInt8) :
    (∃ c, String.utf8EncodeChar c = [b] ∧ ∀ d : Decoder, d.start b = d.keep c) ∨
      (∃ p : Partial, Begun [b] p.left p.low p.high p.bits ∧
        ∀ d : Decoder, d.start b = { d with pending := some p }) ∨
      Lead.ofByte b = .never ∧ ∀ d : Decoder, d.start b = d.substitute := by
  unfold Decoder.start
  have hb := Lead.of_ofByte b
  generalize Lead.ofByte b = l at hb ⊢
  cases hb with
  | whole h => exact .inl ⟨_, (Spelling.eq_encodeChar (by omega) (.one h rfl)).symm, fun _ => rfl⟩
  | two | three | four =>
    exact .inr (.inl ⟨⟨_, _, _, _⟩, .first (by constructor <;> assumption), fun _ => rfl⟩)
  | never => exact .inr (.inr ⟨rfl, fun _ => rfl⟩)

/-- What a scan has in hand: nothing between two characters, and otherwise the beginning of one. -/
def Decoder.Holds (d : Decoder) (piece : Bytes) : Prop :=
  match d.pending with
  | none => piece = []
  | some p => Begun piece p.left p.low p.high p.bits

/-- A scan reads what it has in hand together with what it is still to be fed. -/
lemma exists_reads (bs : Bytes) : ∀ (d : Decoder) (piece : Bytes), d.Holds piece →
    ∃ cs, Reads (piece ++ bs) cs ∧ (d.feed bs).finish.found = cs.reverse ++ d.found := by
  induction bs with
  | nil =>
    intro d piece h
    unfold Decoder.Holds at h
    split at h
    · rename_i hd
      subst h
      exact ⟨[], .nil, by simp [Decoder.feed, Decoder.finish, hd]⟩
    · rename_i p hd
      refine ⟨['\uFFFD'], .broken (h.isBroken (by simp)) .nil, ?_⟩
      simp [Decoder.feed, Decoder.finish, hd, Decoder.substitute]
  | cons b bs ih =>
    -- a byte may be met twice: where it breaks a beginning off, and then as a beginning
    have hstart : ∀ d : Decoder, d.pending = none →
        ∃ cs, Reads (b :: bs) cs ∧ ((d.start b).feed bs).finish.found = cs.reverse ++ d.found := by
      intro d hd
      rcases start_cases b with ⟨c, hc, hkeep⟩ | ⟨p, hp, hopens⟩ | ⟨hnever, hsubstitute⟩
      · obtain ⟨cs, hreads, hfound⟩ := ih (d.keep c) [] rfl
        have hchar := Reads.char c hreads
        rw [hc] at hchar
        exact ⟨c :: cs, hchar, by rw [hkeep, hfound]; simp [Decoder.keep]⟩
      · obtain ⟨cs, hreads, hfound⟩ := ih { d with pending := some p } [b] hp
        exact ⟨cs, hreads, by rw [hopens, hfound]⟩
      · obtain ⟨cs, hreads, hfound⟩ := ih d.substitute [] rfl
        exact ⟨_ :: cs, .broken (isBroken_of_never hnever bs) hreads,
          by rw [hsubstitute, hfound]; simp [Decoder.substitute]⟩
    intro d piece h
    rw [Decoder.feed, List.foldl_cons, ← Decoder.feed]
    unfold Decoder.Holds at h
    split at h
    · rename_i hd
      subst h
      have hpush : d.push b = d.start b := by simp [Decoder.push, hd]
      rw [hpush]
      exact hstart d hd
    · rename_i p hd
      by_cases hb : p.low.toNat ≤ b.toNat ∧ b.toNat ≤ p.high.toNat
      · by_cases hleft : p.left ≤ 1
        · have hcomplete := h.complete hb.1 hb.2 hleft
          rw [Decoder.push_last hd hb.1 hb.2 hleft]
          generalize Char.ofNat _ = c at hcomplete ⊢
          obtain ⟨cs, hreads, hfound⟩ := ih (d.keep c) [] rfl
          have hchar := Reads.char c hreads
          rw [← hcomplete, List.append_assoc] at hchar
          exact ⟨c :: cs, hchar, by rw [hfound]; simp [Decoder.keep]⟩
        · rw [Decoder.push_more hd hb.1 hb.2 (by omega)]
          have hmore := h.more hb.1 hb.2 (by omega)
          obtain ⟨cs, hreads, hfound⟩ := ih
            { d with pending := some ⟨p.left - 1, 0x80, 0xBF, p.bits * 64 + (b.toNat - 0x80)⟩ }
            (piece ++ [b]) hmore
          rw [List.append_assoc] at hreads
          exact ⟨cs, hreads, hfound⟩
      · rw [Decoder.push_stray hd hb]
        obtain ⟨cs, hreads, hfound⟩ := hstart d.substitute rfl
        have hpiece : IsBroken piece (b :: bs) := h.isBroken fun b' hb' => by
          cases hb'
          exact hb
        exact ⟨_ :: cs, .broken hpiece hreads, by rw [hfound]; simp [Decoder.substitute]⟩

/-! ## There is one way to read -/

/-- Of two broken pieces at one place neither is longer. -/
lemma IsBroken.length_le {piece rest piece' rest' : Bytes} (h : IsBroken piece rest)
    (h' : IsBroken piece' rest') (heq : piece' ++ rest' = piece ++ rest) :
    piece'.length ≤ piece.length := by
  rcases h'.begins with hbegins | hone
  · exact h.longest piece' hbegins ⟨rest', heq⟩
  · have := List.length_pos_iff.mpr h.nonempty
    omega

/-- Bytes are read in one way only. -/
lemma Reads.unique {bs : Bytes} {cs cs' : List Char} (h : Reads bs cs) (h' : Reads bs cs') :
    cs = cs' := by
  induction h generalizing cs' with
  | nil =>
    generalize hbs : ([] : Bytes) = bs at h'
    cases h' with
    | nil => rfl
    | char c => exact absurd (List.append_eq_nil_iff.mp hbs.symm).1 (encodeChar_ne_nil c)
    | broken hpiece => exact absurd (List.append_eq_nil_iff.mp hbs.symm).1 hpiece.nonempty
  | @char c rest cs _ ih =>
    generalize hbs : String.utf8EncodeChar c ++ rest = bs at h'
    cases h' with
    | nil => exact absurd (List.append_eq_nil_iff.mp hbs).1 (encodeChar_ne_nil c)
    | @char c' rest' _ hreads =>
      -- no character is the beginning of another one
      obtain rfl : c = c' := by
        rcases List.prefix_or_prefix_of_prefix (List.prefix_append _ _) ⟨rest', hbs.symm⟩ with
          hprefix | hprefix
        · exact eq_of_encodeChar_begins hprefix
        · exact (eq_of_encodeChar_begins hprefix).symm
      obtain rfl := List.append_cancel_left hbs
      rw [ih hreads]
    | broken hpiece => exact absurd ⟨rest, hbs⟩ (hpiece.noChar c)
  | @broken piece rest cs hpiece _ ih =>
    generalize hbs : piece ++ rest = bs at h'
    cases h' with
    | nil => exact absurd (List.append_eq_nil_iff.mp hbs).1 hpiece.nonempty
    | @char c' rest' => exact absurd ⟨rest', hbs.symm⟩ (hpiece.noChar c')
    | @broken piece' rest' _ hpiece' hreads =>
      -- each piece is as long as it can be
      obtain ⟨rfl, rfl⟩ := List.append_inj hbs
        (le_antisymm (hpiece'.length_le hpiece hbs) (hpiece.length_le hpiece' hbs.symm))
      rw [ih hreads]

/-- **Bytes are decoded by their maximal broken pieces.** -/
theorem decode_eq_iff {bs : Bytes} {s : String} : decode bs = s ↔ Reads bs s.toList := by
  obtain ⟨cs, hreads, hfound⟩ := exists_reads bs {} [] rfl
  have hdecode : decode bs = String.ofList cs := by
    rw [decode, scan, hfound]
    simp
  rw [hdecode]
  constructor
  · rintro rfl
    simpa using hreads
  · intro h
    rw [hreads.unique h, String.ofList_toList]

/-- Where nothing is broken, both ways to read agree. -/
lemma decode_of_decode? {bs : Bytes} {s : String} (h : decode? bs = some s) : decode bs = s := by
  simp only [decode?, Option.ite_none_left_eq_some, Option.some.injEq] at h
  exact h.2

/-- A text in front of anything is read first. -/
lemma reads_encodeChars_append {bs : Bytes} {cs : List Char} (h : Reads bs cs) (s : List Char) :
    Reads (encodeChars s ++ bs) (s ++ cs) := by
  induction s with
  | nil => exact h
  | cons c s ih =>
    rw [encodeChars, List.flatMap_cons, List.append_assoc, ← encodeChars]
    exact .char c ih

/-- Text is read as itself, whatever follows it. -/
lemma decode_encode_append (s : String) (bs : Bytes) :
    decode (encode s ++ bs) = s ++ decode bs := by
  rw [decode_eq_iff, String.toList_append]
  exact reads_encodeChars_append (decode_eq_iff.mp rfl) s.toList

end SourceFormat.Utf8

namespace SourceFormat.Subprocess

open Utf8

/-- Whether or not a stream is looked at for being text first, the scan says what it is read as. -/
@[simp] lemma streamText_eq_decode (bs : Bytes) : streamText bs = decode bs := by
  unfold streamText
  split
  · rename_i s hs
    exact (decode_of_decode? hs).symm
  · rfl

/-- **A captured stream is read from the left.** Whatever a process wrote, its text is what `Reads`
describes: every well-formed character, and one U+FFFD for each maximal broken piece.  The streams
that are text as they stand are the spellings of texts, and for them the scan gives that text as
well.  So every text is read back from its spelling, and in front of anything it is read back with
what follows read by itself. -/
theorem streamText_eq_iff (bs : Bytes) (s : String) :
    (streamText bs = s ↔ Reads bs s.toList) ∧
    (decode? bs = some s ↔ bs = encode s) ∧
    decode (encode s) = s ∧
    streamText (encode s) = s ∧
    streamText (encode s ++ bs) = s ++ streamText bs := by
  have hback : decode (encode s) = s := decode_of_decode? (decode?_encode s)
  refine ⟨?_, decode?_eq_some_iff, hback, ?_, ?_⟩
  · rw [streamText_eq_decode]
    exact decode_eq_iff
  · rw [streamText_eq_decode, hback]
  · rw [streamText_eq_decode, streamText_eq_decode]
    exact decode_encode_append s bs

/-- A beginning of three bytes in front of a letter is one broken piece, and so is one at the end;
of an overlong spelling, and of a surrogate, every byte is one. -/
example :
    streamText [0xF0, 0x9F, 0x98, 0x61, 0xE2, 0x82] = "\uFFFDa\uFFFD" ∧
      streamText [0xC0, 0x80] = "\uFFFD\uFFFD" ∧
      streamText [0xED, 0xA0, 0x80] = "\uFFFD\uFFFD\uFFFD" := by
  decide

end SourceFormat.Subprocess
