import Mathlib
import SourceFormat.Formatter.Version
import SourceFormat.Proofs.Text.Decimal

/-!
# The leftmost version name

A version name is a word of a regular language (`namePattern`), and the version in an output is the
one that stands first.  The reader of names knows nothing of languages: it takes the parts off a
text one after the other.  That the two agree is said in three steps.

* `mem_namePattern_iff`: the words of the language, cut into their parts.
* `atStart?_eq_some_iff`: what the reader finds at the beginning of a text is a word of the
  language, as long as it can be there, with its suffix.
* `find?_eq_some_iff`: what it finds further on has no word of the language before it.

`parse?_eq_leftmost` says what this means for a version: there is one exactly if the numbers of the
leftmost name are written in ASCII digits and fit into words.  If they do not, there is none, even
if another name follows.
-/

open Computability

namespace SourceFormat.Formatter

/-! ## The pattern -/

/-- The language of one word. -/
def literally (text : String) : Language Char := {text.toList}

/-- The language of the decimal digits of all scripts. -/
def digit : Language Char := {cs | ∃ c, Text.isDigit c = true ∧ cs = [c]}

/-- The language of the runs of one digit or more. -/
def digitRun : Language Char := digit * digit∗

/-- The language of version names without a suffix: `Uncrustify(_d)?-\d+\.\d+\.\d+`. -/
def namePattern : Language Char :=
  literally "Uncrustify" * (1 + literally "_d") * literally "-" * digitRun * literally "."
    * digitRun * literally "." * digitRun

namespace VersionName

/-- The debug mark as it is written. -/
def markChars (debug : Bool) : List Char := if debug then ['_', 'd'] else []

/-- A version name without its suffix. -/
def core (n : VersionName) : List Char :=
  productName ++ markChars n.debug ++ ['-'] ++ n.major ++ ['.'] ++ n.minor ++ ['.'] ++ n.patch

/-- The suffix as it is written. -/
def suffixChars (n : VersionName) : List Char :=
  match n.suffix with
  | none => []
  | some c => ['_', c]

lemma chars_eq (n : VersionName) : n.chars = n.core ++ n.suffixChars := rfl

/-- A name cut into the parts in which it is read. -/
lemma core_append (n : VersionName) (post : List Char) :
    n.core ++ post = productName ++ (markChars n.debug ++ '-' ::
      (n.major ++ '.' :: (n.minor ++ '.' :: (n.patch ++ post)))) := by
  simp [core]

/-- The numbers of a name are runs of digits. -/
structure HasRuns (n : VersionName) : Prop where
  major : n.major ∈ digitRun
  minor : n.minor ∈ digitRun
  patch : n.patch ∈ digitRun

end VersionName

open VersionName

lemma mem_literally {text : String} {cs : List Char} : cs ∈ literally text ↔ cs = text.toList :=
  Iff.rfl

/-- A repeated digit is a list of digits, be it empty. -/
lemma mem_kstar_digit {cs : List Char} : cs ∈ digit∗ ↔ ∀ c ∈ cs, Text.isDigit c = true := by
  rw [Language.mem_kstar]
  constructor
  · rintro ⟨words, rfl, hwords⟩ c hc
    obtain ⟨word, hword, hc⟩ := List.mem_flatten.mp hc
    obtain ⟨d, hd, rfl⟩ := hwords word hword
    rwa [List.mem_singleton.mp hc]
  · intro h
    refine ⟨cs.map fun c => [c], by rw [← List.flatMap_def, List.flatMap_singleton'], ?_⟩
    intro word hword
    obtain ⟨c, hc, rfl⟩ := List.mem_map.mp hword
    exact ⟨c, h c hc, rfl⟩

/-- A run of digits is a list of digits that is not empty. -/
lemma mem_digitRun {cs : List Char} :
    cs ∈ digitRun ↔ cs ≠ [] ∧ ∀ c ∈ cs, Text.isDigit c = true := by
  unfold digitRun
  rw [Language.mem_mul]
  constructor
  · rintro ⟨_, ⟨c, hc, rfl⟩, rest, hrest, rfl⟩
    exact ⟨by simp, List.forall_mem_cons.mpr ⟨hc, mem_kstar_digit.mp hrest⟩⟩
  · rintro ⟨hne, h⟩
    obtain ⟨c, rest, rfl⟩ := List.exists_cons_of_ne_nil hne
    obtain ⟨hc, hrest⟩ := List.forall_mem_cons.mp h
    exact ⟨[c], ⟨c, hc, rfl⟩, rest, mem_kstar_digit.mpr hrest, rfl⟩

/-- The debug mark stands there or not. -/
lemma mem_mark {cs : List Char} :
    cs ∈ (1 + literally "_d" : Language Char) ↔ ∃ debug, cs = markChars debug := by
  rw [Language.mem_add, Language.mem_one, mem_literally, Bool.exists_bool]
  rfl

/-- The words of the pattern, cut into their parts. -/
lemma mem_namePattern_iff {word : List Char} :
    word ∈ namePattern ↔ ∃ n : VersionName, n.HasRuns ∧ word = n.core := by
  unfold namePattern
  constructor
  · intro h
    obtain ⟨_, h₇, patch, hpatch, rfl⟩ := Language.mem_mul.mp h
    obtain ⟨_, h₆, _, rfl, rfl⟩ := Language.mem_mul.mp h₇
    obtain ⟨_, h₅, minor, hminor, rfl⟩ := Language.mem_mul.mp h₆
    obtain ⟨_, h₄, _, rfl, rfl⟩ := Language.mem_mul.mp h₅
    obtain ⟨_, h₃, major, hmajor, rfl⟩ := Language.mem_mul.mp h₄
    obtain ⟨_, h₂, _, rfl, rfl⟩ := Language.mem_mul.mp h₃
    obtain ⟨_, rfl, mark, hmark, rfl⟩ := Language.mem_mul.mp h₂
    obtain ⟨debug, rfl⟩ := mem_mark.mp hmark
    exact ⟨⟨debug, major, minor, patch, none⟩, ⟨hmajor, hminor, hpatch⟩, rfl⟩
  · rintro ⟨n, hruns, rfl⟩
    refine Language.append_mem_mul ?_ hruns.patch
    refine Language.append_mem_mul ?_ rfl
    refine Language.append_mem_mul ?_ hruns.minor
    refine Language.append_mem_mul ?_ rfl
    refine Language.append_mem_mul ?_ hruns.major
    refine Language.append_mem_mul ?_ rfl
    exact Language.append_mem_mul rfl (mem_mark.mpr ⟨n.debug, rfl⟩)

/-! ## Readings -/

/-- No run of digits goes on in a text. -/
def NoDigitFirst (cs : List Char) : Prop :=
  ∀ c ∈ cs.head?, ¬ Text.isDigit c = true

/-- Behind all digits there is none. -/
lemma noDigitFirst_dropWhile (cs : List Char) : NoDigitFirst (cs.dropWhile Text.isDigit) := by
  intro c hc hdigit
  have hnot := List.head?_dropWhile_not Text.isDigit cs
  rw [Option.mem_def.mp hc] at hnot
  simp [hdigit] at hnot

/-- Where no digit comes first, there is none to be taken. -/
lemma NoDigitFirst.takeWhile_dropWhile {cs : List Char} (h : NoDigitFirst cs) :
    cs.takeWhile Text.isDigit = [] ∧ cs.dropWhile Text.isDigit = cs := by
  cases cs with
  | nil => exact ⟨rfl, rfl⟩
  | cons c cs =>
    have hc : ¬ Text.isDigit c = true := h c rfl
    exact ⟨List.takeWhile_cons_of_neg hc, List.dropWhile_cons_of_neg hc⟩

/-- A point ends a run of digits. -/
lemma noDigitFirst_point (cs : List Char) : NoDigitFirst ('.' :: cs) := by
  intro c hc
  obtain rfl := Option.some.inj hc
  decide

/-- A text begins with a suffix: an underscore and a letter from `a` to `z`. -/
def BeginsWithSuffix (cs : List Char) (c : Char) : Prop :=
  ['_', c] <+: cs ∧ 'a' ≤ c ∧ c ≤ 'z'

/-- A name as it is read in front of `post`.  Its runs of digits are as long as they can be: behind
the first two there is a point, and no digit goes on behind the third. -/
structure VersionName.ReadBefore (n : VersionName) (post : List Char) : Prop where
  runs : n.HasRuns
  maximal : NoDigitFirst post
  suffix_iff : ∀ c, n.suffix = some c ↔ BeginsWithSuffix post c

/-- A name stands behind `pre` in a text, and no word of the pattern stands further to the left. -/
structure LeftmostName (cs pre : List Char) (n : VersionName) (post : List Char) : Prop where
  text_eq : cs = pre ++ (n.core ++ post)
  read : n.ReadBefore post
  leftmost : ∀ pre' word post', cs = pre' ++ (word ++ post') → word ∈ namePattern →
    pre.length ≤ pre'.length

/-- No word of the pattern stands in a text. -/
def NoWordIn (cs : List Char) : Prop :=
  ∀ pre word post, cs = pre ++ (word ++ post) → word ∉ namePattern

/-- A name with runs of digits for numbers is in the language of the pattern. -/
lemma core_mem {n : VersionName} (h : n.HasRuns) : n.core ∈ namePattern :=
  mem_namePattern_iff.mpr ⟨n, h, rfl⟩

/-! ## At the beginning -/

/-- Stripping a text of its beginning leaves the rest. -/
lemma strip?_eq_some_iff {expected cs rest : List Char} :
    strip? expected cs = some rest ↔ cs = expected ++ rest := by
  induction expected generalizing cs with
  | nil => simp [strip?]
  | cons e expected ih =>
    cases cs with
    | nil => simp [strip?]
    | cons c cs =>
      rw [strip?, List.cons_append, List.cons.injEq]
      split
      next h => simp [h, ih]
      next h => simp [Ne.symm h]

/-- Digits are read as far as they go, and at least one. -/
lemma digits?_eq_some_iff {cs run rest : List Char} :
    digits? cs = some (run, rest) ↔ cs = run ++ rest ∧ run ∈ digitRun ∧ NoDigitFirst rest := by
  rw [mem_digitRun]
  unfold digits?
  dsimp only
  constructor
  · intro h
    split at h
    next => cases h
    next hne =>
      obtain ⟨rfl, rfl⟩ := Prod.mk.inj (Option.some.inj h)
      refine ⟨List.takeWhile_append_dropWhile.symm, ⟨mt List.isEmpty_iff.mpr hne, ?_⟩, ?_⟩
      · intro c hc
        exact List.mem_takeWhile_imp hc
      · exact noDigitFirst_dropWhile cs
  · rintro ⟨rfl, ⟨hne, hrun⟩, hrest⟩
    obtain ⟨htake, hdrop⟩ := hrest.takeWhile_dropWhile
    rw [List.takeWhile_append_of_pos hrun, List.dropWhile_append_of_pos hrun, htake, hdrop,
      List.append_nil, if_neg (by simpa using hne)]

/-- The debug mark and the hyphen behind it. -/
lemma debugMark_iff {cs rest : List Char} {debug : Bool} :
    (debugMark cs).1 = debug ∧ strip? ['-'] (debugMark cs).2 = some rest ↔
      cs = markChars debug ++ '-' :: rest := by
  rw [strip?_eq_some_iff]
  unfold debugMark
  split
  next marked => cases debug <;> simp [markChars]
  next hmark =>
    constructor
    · rintro ⟨rfl, hrest⟩
      exact hrest
    · rintro rfl
      cases debug with
      | true => exact absurd rfl (hmark ('-' :: rest))
      | false => exact ⟨rfl, rfl⟩

/-- A suffix is read if the text begins with one. -/
lemma suffixOf_eq_some_iff {cs : List Char} {c : Char} :
    suffixOf cs = some c ↔ BeginsWithSuffix cs c := by
  unfold suffixOf BeginsWithSuffix
  split
  next d rest =>
    rw [List.cons_prefix_cons, List.cons_prefix_cons]
    simp only [isSuffixLetter, Bool.and_eq_true, decide_eq_true_eq, List.nil_prefix, true_and,
      and_true]
    split
    next h =>
      rw [Option.some.injEq]
      constructor
      · rintro rfl
        exact ⟨rfl, h⟩
      · rintro ⟨rfl, -⟩
        rfl
    next h =>
      constructor
      · rintro ⟨⟩
      · rintro ⟨rfl, hletter⟩
        exact absurd hletter h
  next hno =>
    constructor
    · rintro ⟨⟩
    · rintro ⟨⟨rest, rfl⟩, -⟩
      exact absurd rfl (hno c rest)

/-- What is read at the beginning of a text is the name that stands there. -/
lemma atStart?_eq_some_iff {cs : List Char} {n : VersionName} :
    atStart? cs = some n ↔ ∃ post, cs = n.core ++ post ∧ n.ReadBefore post := by
  unfold atStart?
  simp only [Option.bind_eq_bind, Option.bind_eq_some_iff, Option.pure_def]
  constructor
  · rintro ⟨cs₁, hname, cs₂, hmark, ⟨major, cs₃⟩, hmajor, cs₄, hpoint, ⟨minor, cs₅⟩, hminor, cs₆,
      hpoint', ⟨patch, post⟩, hpatch, hn⟩
    obtain rfl := strip?_eq_some_iff.mp hname
    obtain ⟨debug, hdebug⟩ : ∃ debug, (debugMark cs₁).1 = debug := ⟨_, rfl⟩
    rw [hdebug] at hn
    obtain rfl := debugMark_iff.mp ⟨hdebug, hmark⟩
    obtain ⟨rfl, hmajorRun, -⟩ := digits?_eq_some_iff.mp hmajor
    obtain rfl := strip?_eq_some_iff.mp hpoint
    obtain ⟨rfl, hminorRun, -⟩ := digits?_eq_some_iff.mp hminor
    obtain rfl := strip?_eq_some_iff.mp hpoint'
    obtain ⟨rfl, hpatchRun, hpost⟩ := digits?_eq_some_iff.mp hpatch
    obtain rfl := Option.some.inj hn
    exact ⟨post, (core_append ⟨debug, major, minor, patch, suffixOf post⟩ post).symm,
      ⟨hmajorRun, hminorRun, hpatchRun⟩, hpost, fun _ => suffixOf_eq_some_iff⟩
  · rintro ⟨post, rfl, hruns, hmaximal, hsuffix⟩
    rw [core_append]
    obtain ⟨hdebug, hmark⟩ := debugMark_iff.mpr (rfl : markChars n.debug ++ '-' :: _ = _)
    refine ⟨_, strip?_eq_some_iff.mpr rfl, _, hmark,
      _, digits?_eq_some_iff.mpr ⟨rfl, hruns.major, noDigitFirst_point _⟩,
      _, strip?_eq_some_iff.mpr rfl,
      _, digits?_eq_some_iff.mpr ⟨rfl, hruns.minor, noDigitFirst_point _⟩,
      _, strip?_eq_some_iff.mpr rfl,
      _, digits?_eq_some_iff.mpr ⟨rfl, hruns.patch, hmaximal⟩, ?_⟩
    have hsuffixOf : suffixOf post = n.suffix := by
      apply Option.ext
      intro c
      rw [suffixOf_eq_some_iff, hsuffix]
    rw [hdebug, hsuffixOf]

/-- If a word of the pattern stands at the beginning of a text, then a name is read there: that word
with the digits that go on behind it, and with its suffix. -/
lemma exists_begins {cs word post : List Char} (hword : word ∈ namePattern)
    (hcs : cs = word ++ post) :
    ∃ n post', cs = VersionName.core n ++ post' ∧ n.ReadBefore post' := by
  obtain ⟨n, hruns, rfl⟩ := mem_namePattern_iff.mp hword
  let longer := n.patch ++ post.takeWhile Text.isDigit
  let rest := post.dropWhile Text.isDigit
  have hlonger : longer ∈ digitRun := by
    obtain ⟨hne, hpatch⟩ := mem_digitRun.mp hruns.patch
    refine mem_digitRun.mpr ⟨by simp [longer, hne], ?_⟩
    intro c hc
    rcases List.mem_append.mp hc with hc | hc
    · exact hpatch c hc
    · exact List.mem_takeWhile_imp hc
  refine ⟨{ n with patch := longer, suffix := suffixOf rest }, rest, ?_,
    ⟨hruns.major, hruns.minor, hlonger⟩, noDigitFirst_dropWhile post, fun _ =>
      suffixOf_eq_some_iff⟩
  rw [hcs, core_append, core_append, List.append_assoc, List.takeWhile_append_dropWhile]

/-- Nothing is read at the beginning of a text exactly if no word of the pattern stands there. -/
lemma atStart?_eq_none_iff {cs : List Char} :
    atStart? cs = none ↔ ∀ word post, cs = word ++ post → word ∉ namePattern := by
  constructor
  · intro h word post hcs hword
    obtain ⟨n, post', hn⟩ := exists_begins hword hcs
    rw [atStart?_eq_some_iff.mpr ⟨post', hn⟩] at h
    cases h
  · intro h
    rw [Option.eq_none_iff_forall_ne_some]
    intro n hn
    obtain ⟨post, hcs, hread⟩ := atStart?_eq_some_iff.mp hn
    exact h n.core post hcs (core_mem hread.runs)

/-! ## Further on -/

/-- A name at the very start is found. -/
lemma find?_of_atStart? {cs : List Char} {n : VersionName} (h : atStart? cs = some n) :
    find? cs = some n := by
  cases cs with
  | nil => exact h
  | cons c cs => rw [find?, h, Option.orElse_some]

/-- A name at the very start is the leftmost one. -/
lemma leftmostName_of_atStart? {cs : List Char} {n : VersionName} (h : atStart? cs = some n) :
    ∃ post, LeftmostName cs [] n post := by
  obtain ⟨post, hcs, hread⟩ := atStart?_eq_some_iff.mp h
  exact ⟨post, hcs, hread, fun _ _ _ _ _ => Nat.zero_le _⟩

/-- Without a name at the start the search goes on behind the first character. -/
lemma find?_cons_of_atStart?_eq_none {c : Char} {cs : List Char} (h : atStart? (c :: cs) = none) :
    find? (c :: cs) = find? cs := by
  rw [find?, h, Option.orElse_none]

/-- No word of the pattern stands at the beginning of a text if the leftmost name is further on. -/
lemma LeftmostName.atStart?_eq_none {c : Char} {cs pre post : List Char} {n : VersionName}
    (h : LeftmostName cs (c :: pre) n post) : atStart? cs = none := by
  rw [atStart?_eq_none_iff]
  intro word post' hcs hword
  have hle := h.leftmost [] word post' hcs hword
  simp at hle

/-- One character further to the left, if no word of the pattern begins with it. -/
lemma LeftmostName.cons {c : Char} {cs pre post : List Char} {n : VersionName}
    (h : LeftmostName cs pre n post) (hnone : atStart? (c :: cs) = none) :
    LeftmostName (c :: cs) (c :: pre) n post where
  text_eq := by rw [h.text_eq, List.cons_append]
  read := h.read
  leftmost := by
    intro pre' word post' hcs hword
    cases pre' with
    | nil => exact absurd hword (atStart?_eq_none_iff.mp hnone word post' hcs)
    | cons d pre' =>
      have hle := h.leftmost pre' word post' (List.cons.inj hcs).2 hword
      exact Nat.succ_le_succ hle

/-- A name that is leftmost in a text is so behind its first character, if it does not begin
there. -/
lemma LeftmostName.tail {c : Char} {cs pre post : List Char} {n : VersionName}
    (h : LeftmostName (c :: cs) (c :: pre) n post) : LeftmostName cs pre n post where
  text_eq := (List.cons.inj h.text_eq).2
  read := h.read
  leftmost := by
    intro pre' word post' hcs hword
    have hle := h.leftmost (c :: pre') word post' (by rw [hcs, List.cons_append]) hword
    exact Nat.le_of_succ_le_succ hle

/-- The reader finds the leftmost name. -/
lemma find?_eq_some_iff {cs : List Char} {n : VersionName} :
    find? cs = some n ↔ ∃ pre post, LeftmostName cs pre n post := by
  constructor
  · intro h
    induction cs with
    | nil => exact ⟨[], leftmostName_of_atStart? h⟩
    | cons c cs ih =>
      cases hstart : atStart? (c :: cs) with
      | some m =>
        obtain rfl : m = n := Option.some.inj ((find?_of_atStart? hstart).symm.trans h)
        exact ⟨[], leftmostName_of_atStart? hstart⟩
      | none =>
        rw [find?_cons_of_atStart?_eq_none hstart] at h
        obtain ⟨pre, post, hn⟩ := ih h
        exact ⟨c :: pre, post, hn.cons hstart⟩
  · rintro ⟨pre, post, h⟩
    induction pre generalizing cs with
    | nil => exact find?_of_atStart? (atStart?_eq_some_iff.mpr ⟨post, h.text_eq, h.read⟩)
    | cons c pre ih =>
      have hnone := h.atStart?_eq_none
      obtain rfl := h.text_eq
      rw [List.cons_append] at h hnone ⊢
      rw [find?_cons_of_atStart?_eq_none hnone]
      exact ih h.tail

/-- Where no name is found, there is none at the start. -/
lemma atStart?_eq_none_of_find? {cs : List Char} (h : find? cs = none) : atStart? cs = none := by
  by_contra hne
  obtain ⟨n, hn⟩ := Option.ne_none_iff_exists'.mp hne
  rw [find?_of_atStart? hn] at h
  cases h

/-- The reader finds nothing exactly if the text has no word of the pattern. -/
lemma find?_eq_none_iff {cs : List Char} : find? cs = none ↔ NoWordIn cs := by
  constructor
  · intro h pre word post hcs
    have hstart := atStart?_eq_none_of_find? h
    induction pre generalizing cs with
    | nil => exact atStart?_eq_none_iff.mp hstart word post hcs
    | cons c pre ih =>
      subst hcs
      rw [List.cons_append] at h hstart
      rw [find?_cons_of_atStart?_eq_none hstart] at h
      exact ih h rfl (atStart?_eq_none_of_find? h)
  · intro h
    rw [Option.eq_none_iff_forall_ne_some]
    intro n hn
    obtain ⟨pre, post, hn⟩ := find?_eq_some_iff.mp hn
    exact h pre n.core post hn.text_eq (core_mem hn.read.runs)

/-- Only one name is the leftmost one. -/
lemma LeftmostName.unique {cs pre pre' post post' : List Char} {n n' : VersionName}
    (h : LeftmostName cs pre n post) (h' : LeftmostName cs pre' n' post') :
    pre = pre' ∧ n = n' ∧ post = post' := by
  have hname : n = n' := Option.some.inj
    ((find?_eq_some_iff.mpr ⟨pre, post, h⟩).symm.trans (find?_eq_some_iff.mpr ⟨pre', post', h'⟩))
  have hlength : pre.length = pre'.length := Nat.le_antisymm
    (h.leftmost pre' n'.core post' h'.text_eq (core_mem h'.read.runs))
    (h'.leftmost pre n.core post h.text_eq (core_mem h.read.runs))
  subst hname
  obtain ⟨hpre, hrest⟩ := List.append_inj (h.text_eq.symm.trans h'.text_eq) hlength
  exact ⟨hpre, rfl, List.append_cancel_left hrest⟩

/-! ## Numbers -/

/-- The value of a run of ASCII digits. -/
def runValue (run : List Char) : ℕ := Nat.ofDigitChars 10 run 0

/-- A run consists of ASCII digits, and its value fits into a word. -/
def FitsWord (run : List Char) : Prop :=
  (∀ c ∈ run, c.isDigit = true) ∧ runValue run < 2 ^ 32

/-- The three numbers of a name fit into words. -/
structure VersionName.NumbersFit (n : VersionName) : Prop where
  major : FitsWord n.major
  minor : FitsWord n.minor
  patch : FitsWord n.patch

/-- A version is what a name spells: its text is the name with its suffix, its numbers are the
values of the runs, and it has the marks that the name has. -/
structure VersionName.Spells (n : VersionName) (v : Version) : Prop where
  full : v.full.toList = n.core ++ n.suffixChars
  major : v.major.toNat = runValue n.major
  minor : v.minor.toNat = runValue n.minor
  patch : v.patch.toNat = runValue n.patch
  debug : v.debug = n.debug
  suffix : v.suffix = n.suffix

/-- A run of digits is read as a word if its digits are ASCII ones and its value fits. -/
lemma word?_eq_some_iff {run : List Char} (hrun : run ∈ digitRun) {w : UInt32} :
    Version.word? run = some w ↔ FitsWord run ∧ w.toNat = runValue run := by
  have hne : run ≠ [] := (mem_digitRun.mp hrun).1
  have hlt := w.toNat_lt
  unfold Version.word? FitsWord runValue
  rw [Option.bind_eq_some_iff]
  simp only [Text.number?_eq_some_iff, Option.ite_none_right_eq_some, Option.some.injEq]
  constructor
  · rintro ⟨value, ⟨-, hdigits, rfl⟩, hsize, rfl⟩
    exact ⟨⟨hdigits, hsize⟩, UInt32.toNat_ofNat_of_lt hsize⟩
  · rintro ⟨⟨hdigits, hsize⟩, hw⟩
    refine ⟨_, ⟨hne, hdigits, rfl⟩, hsize, ?_⟩
    rw [← hw, UInt32.ofNat_toNat]

/-- A name spells the version that is read from it. -/
lemma ofName?_eq_some_iff {n : VersionName} (hruns : n.HasRuns) {v : Version} :
    Version.ofName? n = some v ↔ n.NumbersFit ∧ n.Spells v := by
  unfold Version.ofName?
  simp only [Option.bind_eq_bind, Option.bind_eq_some_iff, Option.pure_def, Option.some.injEq,
    word?_eq_some_iff hruns.major, word?_eq_some_iff hruns.minor, word?_eq_some_iff hruns.patch]
  constructor
  · rintro ⟨major, ⟨hmajor, hmajorValue⟩, minor, ⟨hminor, hminorValue⟩, patch,
      ⟨hpatch, hpatchValue⟩, rfl⟩
    exact ⟨⟨hmajor, hminor, hpatch⟩,
      ⟨String.toList_ofList, hmajorValue, hminorValue, hpatchValue, rfl, rfl⟩⟩
  · rintro ⟨hfit, hspells⟩
    obtain ⟨full, major, minor, patch, debug, suffix⟩ := v
    refine ⟨major, ⟨hfit.major, hspells.major⟩, minor, ⟨hfit.minor, hspells.minor⟩, patch,
      ⟨hfit.patch, hspells.patch⟩, ?_⟩
    have hfull : String.ofList n.chars = full := by
      rw [chars_eq, ← hspells.full, String.ofList_toList]
    rw [hfull, ← show debug = n.debug from hspells.debug, ← show suffix = n.suffix from
      hspells.suffix]

/-- A name whose numbers fit spells a version. -/
lemma exists_spells {n : VersionName} (h : n.NumbersFit) : ∃ v, n.Spells v :=
  ⟨{ full := String.ofList n.chars
     major := UInt32.ofNat (runValue n.major)
     minor := UInt32.ofNat (runValue n.minor)
     patch := UInt32.ofNat (runValue n.patch)
     debug := n.debug
     suffix := n.suffix },
    { full := String.toList_ofList
      major := UInt32.toNat_ofNat_of_lt h.major.2
      minor := UInt32.toNat_ofNat_of_lt h.minor.2
      patch := UInt32.toNat_ofNat_of_lt h.patch.2
      debug := rfl
      suffix := rfl }⟩

/-! ## The version in an output -/

/-- The version in an output is what its leftmost name spells, if the numbers fit. -/
lemma parse?_eq_some_iff {output : String} {v : Version} :
    Version.parse? output = some v ↔
      ∃ pre n post, LeftmostName output.toList pre n post ∧ n.NumbersFit ∧ n.Spells v := by
  unfold Version.parse?
  rw [Option.bind_eq_some_iff]
  constructor
  · rintro ⟨n, hfind, hname⟩
    obtain ⟨pre, post, hn⟩ := find?_eq_some_iff.mp hfind
    obtain ⟨hfit, hspells⟩ := (ofName?_eq_some_iff hn.read.runs).mp hname
    exact ⟨pre, n, post, hn, hfit, hspells⟩
  · rintro ⟨pre, n, post, hn, hfit, hspells⟩
    exact ⟨n, find?_eq_some_iff.mpr ⟨pre, post, hn⟩,
      (ofName?_eq_some_iff hn.read.runs).mpr ⟨hfit, hspells⟩⟩

/-- **The version in an output is the one of its leftmost name.** An output has a version exactly if
it has a word of the pattern and, in the leftmost one, read with runs of digits as long as they can
be, the three runs consist of ASCII digits and fit into words; the version then is what this name
spells with the suffix that directly follows it.  An output without such a word has no version, and
neither has one whose leftmost name has a number that does not fit, whatever stands behind it.  A
text with a word of the pattern has one leftmost name and no other. -/
theorem parse?_eq_leftmost (output : String) :
    (∀ v, Version.parse? output = some v ↔
      ∃ pre n post, LeftmostName output.toList pre n post ∧ n.NumbersFit ∧ n.Spells v) ∧
    (Version.parse? output = none ↔
      NoWordIn output.toList ∨
        ∃ pre n post, LeftmostName output.toList pre n post ∧ ¬ n.NumbersFit) ∧
    (¬ NoWordIn output.toList →
      ∃ pre n post, LeftmostName output.toList pre n post ∧
        ∀ pre' n' post', LeftmostName output.toList pre' n' post' →
          pre = pre' ∧ n = n' ∧ post = post') := by
  refine ⟨fun v => parse?_eq_some_iff, ?_, ?_⟩
  · constructor
    · intro hnone
      by_cases hfind : VersionName.find? output.toList = none
      · exact .inl (find?_eq_none_iff.mp hfind)
      · obtain ⟨n, hn⟩ := Option.ne_none_iff_exists'.mp hfind
        obtain ⟨pre, post, hn⟩ := find?_eq_some_iff.mp hn
        refine .inr ⟨pre, n, post, hn, ?_⟩
        intro hfit
        obtain ⟨v, hv⟩ := exists_spells hfit
        rw [parse?_eq_some_iff.mpr ⟨pre, n, post, hn, hfit, hv⟩] at hnone
        cases hnone
    · intro h
      rw [Option.eq_none_iff_forall_ne_some]
      intro v hv
      obtain ⟨pre, n, post, hn, hfit, -⟩ := parse?_eq_some_iff.mp hv
      rcases h with hno | ⟨pre', n', post', hn', hnot⟩
      · exact hno pre n.core post hn.text_eq (core_mem hn.read.runs)
      · obtain ⟨-, rfl, -⟩ := hn.unique hn'
        exact hnot hfit
  · intro hword
    obtain ⟨n, hn⟩ := Option.ne_none_iff_exists'.mp (mt find?_eq_none_iff.mp hword)
    obtain ⟨pre, post, hn⟩ := find?_eq_some_iff.mp hn
    exact ⟨pre, n, post, hn, fun _ _ _ hn' => hn.unique hn'⟩

end SourceFormat.Formatter
