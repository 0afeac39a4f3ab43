import Mathlib
import SourceFormat.Toml.Lexical
import SourceFormat.Toml.Printer

/-!
# Written strings are read back

`string?_write` says that a string in the form that is chosen for it is read as that string, and
that the reader stops where the string ends.  What follows must not begin with a quote, which would
be taken for a part of the string or of its end.

Each form is treated by itself.  The two forms between double quotes read back every string,
whether or not they would be chosen for it: an escape is read as the character it stands for
(`escapes_escape`), and of a run of double quotes in several lines every third one is escaped, so
that the closing quotes are the first three in a row (`quoteRun_basicLinesBody`).  The two forms
between single quotes know no escapes and read back the strings that they are chosen for.
-/

namespace SourceFormat.Toml

/-! ## Characters -/

/-- What is no control character is plain. -/
lemma isPlain_of_not_isControl {c : Char} (h : isControl c = false) : isPlain c = true := by
  simp only [isControl, Bool.or_eq_false_iff, decide_eq_false_iff_not, not_lt] at h
  simp [isPlain, h.1, h.2]

/-- What may stand on one line as it is, is plain. -/
lemma isPlain_of_not_needsLine {c : Char} (h : needsLine c = false) : isPlain c = true := by
  by_cases hc : isControl c = true
  · simp only [needsLine, hc, Bool.true_and, decide_eq_false_iff_not, not_not] at h
    subst h
    rfl
  · exact isPlain_of_not_isControl (by simpa using hc)

/-- What does not need an escape is plain, but for line ends. -/
lemma isPlain_of_not_needsEscape {c : Char} (h : needsEscape c = false) (hc : c ≠ '\n') :
    isPlain c = true := by
  apply isPlain_of_not_needsLine
  simpa [needsEscape, needsLine, hc] using h

/-- A hexadecimal digit has its value. -/
lemma hexValue?_upperHexDigit : ∀ n < 16, hexValue? (upperHexDigit n) = some n := by
  decide

/-! ## Escapes -/

/-- Whether a character is written as an escape in the form between double quotes. -/
def needsBackslash (c : Char) : Bool :=
  c = '"' || c = '\\' || isControl c

/-- From a state inside an escape, characters that complete a character. -/
inductive Escapes : EscapeState → List Char → Char → Prop where
  | last {st : EscapeState} {c d : Char} (h : stepEscape st c = some (.plain, some d)) :
      Escapes st [c] d
  | more {st st' : EscapeState} {c d : Char} {cs : List Char}
      (h : stepEscape st c = some (st', none)) (h' : Escapes st' cs d) : Escapes st (c :: cs) d

/-- An escape of four digits spells its scalar value. -/
lemma escapes_hex {c : Char} (hc : c.toNat < 0x80) :
    Escapes .escape
      ['u', '0', '0', upperHexDigit (c.toNat / 16), upperHexDigit (c.toNat % 16)] c := by
  have hhigh := hexValue?_upperHexDigit (c.toNat / 16) (by omega)
  have hlow := hexValue?_upperHexDigit (c.toNat % 16) (by omega)
  have hvalue : c.toNat / 16 * 16 + c.toNat % 16 = c.toNat := by omega
  have hchar : scalarChar? c.toNat = some c := by
    rw [scalarChar?, if_pos (by omega), Char.ofNat_toNat]
  have hthird : stepEscape (.hex 2 0) (upperHexDigit (c.toNat / 16))
      = some (.hex 1 (c.toNat / 16), none) := by
    simp [stepEscape, hhigh]
  have hfourth : stepEscape (.hex 1 (c.toNat / 16)) (upperHexDigit (c.toNat % 16))
      = some (.plain, some c) := by
    simp [stepEscape, hlow, hvalue, hchar]
  have hdigits : Escapes (.hex 2 0)
      [upperHexDigit (c.toNat / 16), upperHexDigit (c.toNat % 16)] c :=
    .more hthird (.last hfourth)
  have hzeros : Escapes (.hex 4 0)
      ['0', '0', upperHexDigit (c.toNat / 16), upperHexDigit (c.toNat % 16)] c :=
    .more rfl (.more rfl hdigits)
  exact .more rfl hzeros

/-- The escape of a character is a backslash and what completes the character. -/
lemma escapes_escape {c : Char} (h : needsBackslash c = true) :
    ∃ cs, escape c = '\\' :: cs ∧ Escapes .escape cs c := by
  unfold escape
  split_ifs with h₁ h₂ h₃ h₄ h₅ h₆ h₇
  · exact ⟨_, rfl, .last (by subst h₁; rfl)⟩
  · exact ⟨_, rfl, .last (by subst h₂; rfl)⟩
  · exact ⟨_, rfl, .last (by subst h₃; rfl)⟩
  · exact ⟨_, rfl, .last (by subst h₄; rfl)⟩
  · exact ⟨_, rfl, .last (by subst h₅; rfl)⟩
  · exact ⟨_, rfl, .last (by subst h₆; rfl)⟩
  · exact ⟨_, rfl, .last (by subst h₇; rfl)⟩
  · refine ⟨_, rfl, escapes_hex ?_⟩
    simp only [needsBackslash, h₇, h₆, decide_false, Bool.false_or, isControl, Bool.or_eq_true,
      decide_eq_true_eq] at h
    rcases h with h | rfl
    · have : c.toNat < 0x20 := h
      omega
    · decide

/-- No escape begins with a quote or a line end. -/
lemma head?_escape {c : Char} (h : needsBackslash c = true) (cs : List Char) :
    (escape c ++ cs).head? = some '\\' := by
  obtain ⟨ds, hds, -⟩ := escapes_escape h
  rw [hds]
  rfl

/-- Between double quotes the characters of an escape are read as what they stand for. -/
lemma basicString_escapes {st : EscapeState} {cs : List Char} {d : Char} (h : Escapes st cs d)
    (found rest : List Char) :
    basicString st found (cs ++ rest) = basicString .plain (d :: found) rest := by
  induction h with
  | @last st c d h => cases st <;> simp_all [basicString, stepEscape]
  | @more st st' c d cs h h' ih => cases st <;> simp_all [basicString, stepEscape]

/-! ## Between double quotes -/

/-- Between double quotes the escape of a character is read as that character. -/
lemma basicString_escape {c : Char} (h : needsBackslash c = true) (found rest : List Char) :
    basicString .plain found (escape c ++ rest) = basicString .plain (c :: found) rest := by
  obtain ⟨cs, hcs, hc⟩ := escapes_escape h
  rw [hcs, ← basicString_escapes hc]
  rfl

/-- Between double quotes a character without an escape is read as itself. -/
lemma basicString_self {c : Char} (h : needsBackslash c = false) (found rest : List Char) :
    basicString .plain found (c :: rest) = basicString .plain (c :: found) rest := by
  simp only [needsBackslash, Bool.or_eq_false_iff, decide_eq_false_iff_not] at h
  rw [basicString, if_neg h.1.1, if_neg h.1.2, if_pos (isPlain_of_not_isControl h.2)]

/-- A body is written character by character. -/
lemma basicBody_cons (c : Char) (cs : List Char) :
    basicBody (c :: cs) = (if needsBackslash c then escape c else [c]) ++ basicBody cs :=
  rfl

/-- Every string is read back from between double quotes. -/
lemma basicString_basicBody (cs found rest : List Char) :
    basicString .plain found (basicBody cs ++ '"' :: rest) = some (found.reverse ++ cs, rest) := by
  induction cs generalizing found with
  | nil => simp [basicBody, basicString]
  | cons c cs ih =>
    have hstep : basicString .plain found (basicBody (c :: cs) ++ '"' :: rest)
        = basicString .plain (c :: found) (basicBody cs ++ '"' :: rest) := by
      rw [basicBody_cons, List.append_assoc]
      cases h : needsBackslash c with
      | true => exact basicString_escape h found _
      | false => exact basicString_self h found _
    rw [hstep, ih]
    simp

/-! ## Between single quotes -/

/-- Plain characters without single quotes are read back from between single quotes. -/
lemma literalString_self {cs : List Char} (h : ∀ c ∈ cs, c ≠ '\'' ∧ isPlain c = true)
    (found rest : List Char) :
    literalString found (cs ++ '\'' :: rest) = some (found.reverse ++ cs, rest) := by
  induction cs generalizing found with
  | nil => simp [literalString]
  | cons c cs ih =>
    obtain ⟨hc, hcs⟩ := List.forall_mem_cons.mp h
    rw [List.cons_append, literalString, if_neg hc.1, if_pos hc.2, ih hcs]
    simp

/-! ## Closing quotes of several lines -/

/-- Three quotes close a string, and up to two more before them belong to it. -/
lemma closing?_replicate {q : Char} {k : Nat} (hk : k ≤ 2) {rest : List Char}
    (hrest : rest.head? ≠ some q) :
    closing? q (List.replicate k q ++ q :: q :: q :: rest) = some (List.replicate k q, rest) := by
  have hend : List.takeWhile (· = q) rest = [] := by
    cases rest with
    | nil => rfl
    | cons c rest => simp_all
  have hall : List.replicate k q ++ q :: q :: q :: rest = List.replicate (k + 3) q ++ rest := by
    rw [List.replicate_add, List.append_assoc]
    rfl
  have hrun : (List.takeWhile (· = q) (List.replicate (k + 3) q ++ rest)).length = k + 3 := by
    rw [List.takeWhile_append_of_pos (by simp), hend]
    simp
  rw [closing?, hall, hrun, if_neg (by omega), show min (k + 3 - 3) 2 = k by omega,
    show min (k + 3) 5 = k + 3 by omega, List.drop_left' (by simp)]

/-- A text that begins with at most two quotes does not begin with closing quotes, unless it is
nothing but those quotes. -/
lemma closing?_cases {q : Char} {body : List Char} (h : (body.takeWhile (· = q)).length ≤ 2)
    (rest : List Char) :
    (∃ k ≤ 2, body = List.replicate k q) ∨ closing? q (body ++ rest) = none := by
  by_cases hall : body.takeWhile (· = q) = body
  · have hquotes : ∀ c ∈ body, c = q := by simpa using hall
    rw [hall] at h
    exact .inl ⟨body.length, h, List.eq_replicate_of_mem hquotes⟩
  · have hlength : (body.takeWhile (· = q)).length ≠ body.length :=
      fun heq => hall ((List.takeWhile_sublist (· = q)).eq_of_length heq)
    refine .inr ?_
    rw [closing?, List.takeWhile_append, if_neg hlength, if_pos (by omega)]

/-! ## Between three double quotes -/

/-- Between triple double quotes a closing run ends the string, and what is too long of it belongs
there. -/
lemma basicLines_closing {p quotes behind : List Char} (h : closing? '"' p = some (quotes, behind))
    (found : List Char) : basicLines .plain found p = some (found.reverse ++ quotes, behind) := by
  cases p with
  | nil => cases h
  | cons c rest => simp only [basicLines, h]

/-- Between triple double quotes a character that ends nothing is read as itself. -/
lemma basicLines_self {c : Char} {rest : List Char} (h : closing? '"' (c :: rest) = none)
    (hc : c ≠ '\\') (hplain : c = '\n' ∨ isPlain c = true) (found : List Char) :
    basicLines .plain found (c :: rest) = basicLines .plain (c :: found) rest := by
  have hr : c ≠ '\r' := by
    rintro rfl
    simp [isPlain] at hplain
  have hstep : stepLines found c = some (.plain, c :: found) := by
    rw [stepLines, if_neg hc, if_neg hr, if_pos hplain]
  simp only [basicLines, h, hstep]

/-- No escape begins with white space, which would be taken for a line that is folded. -/
lemma not_fold_of_escapes {c : Char} {x : EscapeState × Option Char}
    (h : stepEscape .escape c = some x) : isSpace c = false ∧ c ≠ '\n' ∧ c ≠ '\r' := by
  refine ⟨?_, ?_, ?_⟩
  · by_contra hc
    simp only [isSpace, Bool.not_eq_false, Bool.or_eq_true, decide_eq_true_eq] at hc
    rcases hc with rfl | rfl <;> cases h
  · rintro rfl
    cases h
  · rintro rfl
    cases h

/-- Between triple double quotes the characters of an escape are read as what they stand for. -/
lemma basicLines_escapes {st : EscapeState} {cs : List Char} {d : Char} (h : Escapes st cs d)
    (found rest : List Char) :
    basicLines st found (cs ++ rest) = basicLines .plain (d :: found) rest := by
  induction h with
  | @last st c d h =>
    cases st with
    | escape =>
      obtain ⟨hs, hn, hr⟩ := not_fold_of_escapes h
      simp [basicLines, hs, hn, hr, h]
    | hex left value => simp [basicLines, h]
    | _ => cases h
  | @more st st' c d cs h h' ih =>
    cases st with
    | escape =>
      obtain ⟨hs, hn, hr⟩ := not_fold_of_escapes h
      simp [basicLines, hs, hn, hr, h, ih]
    | hex left value => simp [basicLines, h, ih]
    | _ => cases h

/-- Between triple double quotes the escape of a character is read as that character. -/
lemma basicLines_escape {c : Char} (h : needsBackslash c = true) (found rest : List Char) :
    basicLines .plain found (escape c ++ rest) = basicLines .plain (c :: found) rest := by
  obtain ⟨cs, hcs, hc⟩ := escapes_escape h
  have hopen : basicLines .plain found ('\\' :: (cs ++ rest))
      = basicLines .escape found (cs ++ rest) := by
    simp [basicLines, closing?, stepLines]
  rw [hcs, List.cons_append, hopen, basicLines_escapes hc]

/-- What the body makes of a character: an escape, a quote that is counted, or what it is. -/
lemma basicLinesBody_cons (run : Nat) (c : Char) (cs : List Char) :
    (needsBackslash c = true ∧
        basicLinesBody run (c :: cs) = escape c ++ basicLinesBody 0 cs) ∨
      (c = '"' ∧ run ≠ 2 ∧ basicLinesBody run (c :: cs) = c :: basicLinesBody (run + 1) cs) ∨
      (c ≠ '"' ∧ c ≠ '\\' ∧ (c = '\n' ∨ isPlain c = true) ∧
        basicLinesBody run (c :: cs) = c :: basicLinesBody 0 cs) := by
  rw [basicLinesBody]
  split_ifs with hquote hfull hbreak hescape
  · exact .inl ⟨by simp [needsBackslash, hquote], rfl⟩
  · exact .inr (.inl ⟨hquote, hfull, rfl⟩)
  · exact .inr (.inr ⟨hquote, by simp [hbreak], .inl hbreak, rfl⟩)
  · exact .inl ⟨by simpa [needsBackslash, hquote] using hescape, rfl⟩
  · simp only [Bool.or_eq_true, decide_eq_true_eq, not_or, Bool.not_eq_true] at hescape
    exact .inr (.inr ⟨hquote, hescape.1, .inr (isPlain_of_not_isControl hescape.2), rfl⟩)

/-- Behind `run` quotes, the body goes on with at most as many as make two. -/
lemma quoteRun_basicLinesBody (cs : List Char) {run : Nat} (hrun : run ≤ 2) :
    ((basicLinesBody run cs).takeWhile (· = '"')).length + run ≤ 2 := by
  induction cs generalizing run with
  | nil => simpa [basicLinesBody] using hrun
  | cons c cs ih =>
    rcases basicLinesBody_cons run c cs with ⟨h, hbody⟩ | ⟨rfl, hfull, hbody⟩ | ⟨hc, -, -, hbody⟩
    · obtain ⟨ds, hds, -⟩ := escapes_escape h
      simpa [hbody, hds] using hrun
    · have hnext : run + 1 ≤ 2 := by omega
      have := ih hnext
      rw [hbody, List.takeWhile_cons_of_pos (by simp), List.length_cons]
      omega
    · simpa [hbody, hc] using hrun

/-- A body of quotes only holds no escapes. -/
lemma eq_replicate_of_basicLinesBody {cs : List Char} {run k : Nat}
    (h : basicLinesBody run cs = List.replicate k '"') : cs = List.replicate k '"' := by
  induction cs generalizing run k with
  | nil => simpa [basicLinesBody] using h
  | cons c cs ih =>
    cases k with
    | zero =>
      rcases basicLinesBody_cons run c cs with ⟨hc, hbody⟩ | ⟨-, -, hbody⟩ | ⟨-, -, -, hbody⟩
      · have := head?_escape hc (basicLinesBody 0 cs)
        simp [← hbody, h] at this
      · simp [hbody] at h
      · simp [hbody] at h
    | succ k =>
      rw [List.replicate_succ] at h ⊢
      rcases basicLinesBody_cons run c cs with ⟨hc, hbody⟩ | ⟨hc, -, hbody⟩ | ⟨hc, -, -, hbody⟩
      · have := head?_escape hc (basicLinesBody 0 cs)
        simp [← hbody, h] at this
      · rw [hbody] at h
        rw [hc, ih (List.cons.inj h).2]
      · rw [hbody] at h
        exact absurd (List.cons.inj h).1 hc

/-- Every string is read back from between three double quotes. -/
lemma basicLines_basicLinesBody (cs : List Char) {run : Nat} (hrun : run ≤ 2) (found : List Char)
    {rest : List Char} (hrest : rest.head? ≠ some '"') :
    basicLines .plain found (basicLinesBody run cs ++ '"' :: '"' :: '"' :: rest)
      = some (found.reverse ++ cs, rest) := by
  induction cs generalizing run found with
  | nil => exact basicLines_closing (closing?_replicate (k := 0) (by omega) hrest) found
  | cons c cs ih =>
    have hquotes : ((basicLinesBody run (c :: cs)).takeWhile (· = '"')).length ≤ 2 := by
      have := quoteRun_basicLinesBody (c :: cs) hrun
      omega
    rcases closing?_cases hquotes ('"' :: '"' :: '"' :: rest) with ⟨k, hk, hall⟩ | hopen
    · rw [hall, eq_replicate_of_basicLinesBody hall]
      exact basicLines_closing (closing?_replicate hk hrest) found
    -- No closing quotes begin here, so one character is read and the rest follows by induction.
    · have hnext : ∀ next, next ≤ 2 → basicLines .plain (c :: found)
          (basicLinesBody next cs ++ '"' :: '"' :: '"' :: rest)
            = some (found.reverse ++ c :: cs, rest) := by
        intro next hnext
        rw [ih hnext]
        simp
      rcases basicLinesBody_cons run c cs with
        ⟨hc, hbody⟩ | ⟨hc, hfull, hbody⟩ | ⟨-, hc, hplain, hbody⟩
      · rw [hbody, List.append_assoc, basicLines_escape hc]
        exact hnext 0 (by omega)
      · have hback : c ≠ '\\' := by simp [hc]
        have hplain : isPlain c = true := by simp [hc, isPlain]
        rw [hbody, List.cons_append] at hopen ⊢
        rw [basicLines_self hopen hback (.inr hplain)]
        exact hnext (run + 1) (by omega)
      · rw [hbody, List.cons_append] at hopen ⊢
        rw [basicLines_self hopen hc hplain]
        exact hnext 0 (by omega)

/-! ## Between three single quotes -/

/-- Where no three quotes stand together, there are two at most. -/
lemma quoteRun_of_not_hasTriple {q : Char} {cs : List Char} (h : hasTriple q cs = false) :
    (cs.takeWhile (· = q)).length ≤ 2 := by
  match cs with
  | [] => simp
  | [_] => exact (List.takeWhile_sublist _).length_le.trans (by simp)
  | [_, _] => exact (List.takeWhile_sublist _).length_le
  | a :: b :: c :: cs =>
    rw [hasTriple, Bool.or_eq_false_iff] at h
    by_cases ha : a = q <;> by_cases hb : b = q <;> by_cases hc : c = q <;> simp_all

/-- Where no three quotes stand together, none do behind the first character. -/
lemma hasTriple_tail {q c : Char} {cs : List Char} (h : hasTriple q (c :: cs) = false) :
    hasTriple q cs = false := by
  match cs with
  | [] | [_] => rfl
  | _ :: _ :: _ =>
    rw [hasTriple, Bool.or_eq_false_iff] at h
    exact h.2

/-- Between triple single quotes a closing run ends the string, and what is too long of it belongs
there. -/
lemma literalLines_closing {p quotes behind : List Char}
    (h : closing? '\'' p = some (quotes, behind)) (found : List Char) :
    literalLines false found p = some (found.reverse ++ quotes, behind) := by
  cases p with
  | nil => cases h
  | cons c rest => simp [literalLines, h]

/-- Characters that no form in several lines has to escape are read back from between three single
quotes, if no three single quotes are among them. -/
lemma literalLines_self {cs : List Char} (hcs : ∀ c ∈ cs, needsEscape c = false)
    (htriple : hasTriple '\'' cs = false) (found : List Char) {rest : List Char}
    (hrest : rest.head? ≠ some '\'') :
    literalLines false found (cs ++ '\'' :: '\'' :: '\'' :: rest)
      = some (found.reverse ++ cs, rest) := by
  induction cs generalizing found with
  | nil => exact literalLines_closing (closing?_replicate (k := 0) (by omega) hrest) found
  | cons c cs ih =>
    rcases closing?_cases (quoteRun_of_not_hasTriple htriple) ('\'' :: '\'' :: '\'' :: rest) with
      ⟨k, hk, hall⟩ | hopen
    · rw [hall]
      exact literalLines_closing (closing?_replicate hk hrest) found
    · obtain ⟨hc, hcs⟩ := List.forall_mem_cons.mp hcs
      have hr : c ≠ '\r' := by
        rintro rfl
        cases hc
      have hplain : c = '\n' ∨ isPlain c = true := by
        by_cases hn : c = '\n'
        · exact .inl hn
        · exact .inr (isPlain_of_not_needsEscape hc hn)
      rw [List.cons_append] at hopen ⊢
      rw [literalLines, if_neg (by simp), hopen]
      simp only [hr, if_false, hplain, if_true]
      rw [ih hcs (hasTriple_tail htriple)]
      simp

/-! ## The form that is chosen -/

/-- A reader drops the line end that is written behind the opening quotes, and no other. -/
lemma dropFirstBreak_firstBreak {cs p : List Char}
    (h : '\n' ∉ cs → p.head? ≠ some '\n' ∧ p.head? ≠ some '\r') :
    dropFirstBreak (firstBreak cs ++ p) = p := by
  by_cases hcs : '\n' ∈ cs
  · simp [firstBreak, hcs, dropFirstBreak, lineEnd?]
  · obtain ⟨hn, hr⟩ := h hcs
    have : lineEnd? p = none := by
      unfold lineEnd?
      split <;> simp_all
    simp [firstBreak, hcs, dropFirstBreak, this]

/-- A body between double quotes does not begin with one. -/
lemma head?_basicBody (cs : List Char) : (basicBody cs).head? ≠ some '"' := by
  cases cs with
  | nil => simp [basicBody]
  | cons c cs =>
    rw [basicBody_cons]
    split_ifs with h
    · simp [head?_escape h]
    · intro hc
      simp_all [needsBackslash]

/-- A string between double quotes is read as it was written. -/
lemma string?_basic (cs : List Char) {rest : List Char} (hrest : rest.head? ≠ some '"') :
    string? (StringForm.basic.write cs ++ rest) = some (cs, rest) := by
  have hwrite : StringForm.basic.write cs ++ rest = '"' :: (basicBody cs ++ '"' :: rest) := by
    simp [StringForm.write]
  have hshort : string? ('"' :: (basicBody cs ++ '"' :: rest))
      = basicString .plain [] (basicBody cs ++ '"' :: rest) := by
    have hhead := head?_basicBody cs
    unfold string?
    split <;> rename_i heq
    · cases hbody : basicBody cs <;> simp_all
    · cases heq
    · rfl
  rw [hwrite, hshort, basicString_basicBody]
  rfl

/-- A string between single quotes is read as it was written. -/
lemma string?_literal {cs : List Char} (h : ∀ c ∈ cs, c ≠ '\'' ∧ isPlain c = true)
    {rest : List Char} (hrest : rest.head? ≠ some '\'') :
    string? (StringForm.literal.write cs ++ rest) = some (cs, rest) := by
  have hwrite : StringForm.literal.write cs ++ rest = '\'' :: (cs ++ '\'' :: rest) := by
    simp [StringForm.write]
  have hshort : string? ('\'' :: (cs ++ '\'' :: rest)) = literalString [] (cs ++ '\'' :: rest) := by
    unfold string?
    split <;> rename_i heq
    · cases heq
    · cases cs <;> simp_all
    · rfl
  rw [hwrite, hshort, literalString_self h]
  rfl

/-- A string between triple double quotes is read as it was written. -/
lemma string?_basicLines (cs : List Char) {rest : List Char} (hrest : rest.head? ≠ some '"') :
    string? (StringForm.basicLines.write cs ++ rest) = some (cs, rest) := by
  have hwrite : StringForm.basicLines.write cs ++ rest = '"' :: '"' :: '"' ::
      (firstBreak cs ++ (basicLinesBody 0 cs ++ '"' :: '"' :: '"' :: rest)) := by
    simp [StringForm.write]
  have hbreak : dropFirstBreak (firstBreak cs ++ (basicLinesBody 0 cs ++ '"' :: '"' :: '"' :: rest))
      = basicLinesBody 0 cs ++ '"' :: '"' :: '"' :: rest := by
    apply dropFirstBreak_firstBreak
    intro hn
    cases cs with
    | nil => simp [basicLinesBody]
    | cons c cs =>
      rcases basicLinesBody_cons 0 c cs with ⟨hc, hbody⟩ | ⟨rfl, -, hbody⟩ | ⟨-, -, hplain, hbody⟩
      · rw [hbody, List.append_assoc, head?_escape hc]
        simp
      · simp [hbody]
      · have hc : c ≠ '\n' := fun h => hn (h ▸ List.mem_cons_self)
        have hr : c ≠ '\r' := by
          rintro rfl
          simp [isPlain] at hplain
        simp [hbody, hc, hr]
  rw [hwrite, string?, hbreak, basicLines_basicLinesBody cs (by omega) [] hrest]
  rfl

/-- A string between triple single quotes is read as it was written. -/
lemma string?_literalLines {cs : List Char} (hcs : ∀ c ∈ cs, needsEscape c = false)
    (htriple : hasTriple '\'' cs = false) {rest : List Char} (hrest : rest.head? ≠ some '\'') :
    string? (StringForm.literalLines.write cs ++ rest) = some (cs, rest) := by
  have hwrite : StringForm.literalLines.write cs ++ rest = '\'' :: '\'' :: '\'' ::
      (firstBreak cs ++ (cs ++ '\'' :: '\'' :: '\'' :: rest)) := by
    simp [StringForm.write]
  have hbreak : dropFirstBreak (firstBreak cs ++ (cs ++ '\'' :: '\'' :: '\'' :: rest))
      = cs ++ '\'' :: '\'' :: '\'' :: rest := by
    apply dropFirstBreak_firstBreak
    intro hn
    cases cs with
    | nil => simp
    | cons c cs =>
      have hc : c ≠ '\n' := fun h => hn (h ▸ List.mem_cons_self)
      have hr : c ≠ '\r' := by
        rintro rfl
        cases hcs '\r' List.mem_cons_self
      simp [hc, hr]
  rw [hwrite, string?, hbreak, literalLines_self hcs htriple [] hrest]
  rfl

/-- Every string is read back from the form that is chosen for it. -/
theorem string?_write (cs : List Char) {rest : List Char}
    (hdouble : rest.head? ≠ some '"') (hsingle : rest.head? ≠ some '\'') :
    string? ((StringForm.choose cs).write cs ++ rest) = some (cs, rest) := by
  unfold StringForm.choose
  split_ifs with hsimple hplain hliteral hlines hliteralLines hbreak
  · exact string?_basic cs hdouble
  · exact string?_basic cs hdouble
  · refine string?_literal (fun c hc => ?_) hsingle
    have := List.all_eq_true.mp hliteral c hc
    simp only [Bool.and_eq_true, decide_eq_true_eq, Bool.not_eq_true'] at this
    exact ⟨this.1, isPlain_of_not_needsLine this.2⟩
  · exact string?_basicLines cs hdouble
  · rw [Bool.and_eq_true, Bool.not_eq_true'] at hliteralLines
    refine string?_literalLines (fun c hc => ?_) hliteralLines.2 hsingle
    simpa using List.all_eq_true.mp hliteralLines.1 c hc
  · exact string?_basicLines cs hdouble
  · exact string?_basic cs hdouble

end SourceFormat.Toml
