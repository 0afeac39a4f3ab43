import Mathlib
import SourceFormat.Proofs.Formatter.VersionPattern

/-!
# A version name in another text

The text of a version is a version name again, and wherever it is put, the same version is read from
it, as long as there is no other name in front of it and nothing behind it that would go on with its
last number or be taken for its suffix (`reread_in_context`).

Two things could go wrong.  A word of the pattern could begin in front of the name and end inside
it: it cannot, because the letter that the name begins with stands nowhere else in a word
(`capital_notMem_tail`).  And the numbers could be read differently: they are not, because they are
written in the decimal notation that they are read in (`spells_decimalName`).
-/

namespace SourceFormat.Formatter

open VersionName

/-! ## In front of a name -/

/-- What is no digit does not stand in a run of digits. -/
lemma notMem_of_mem_digitRun {run : List Char} (h : run ∈ digitRun) {c : Char}
    (hc : ¬ Text.isDigit c = true) : c ∉ run := by
  intro hmem
  exact hc ((mem_digitRun.mp h).2 c hmem)

/-- The capital letter that a word of the pattern begins with stands nowhere else in it. -/
lemma capital_notMem_tail {word : List Char} (h : word ∈ namePattern) :
    ∃ tail, word = 'U' :: tail ∧ 'U' ∉ tail := by
  obtain ⟨n, hruns, rfl⟩ := mem_namePattern_iff.mp h
  have hcapital : ¬ Text.isDigit 'U' = true := by decide
  have hletters : 'U' ∉ "ncrustify".toList := by decide
  have hmark : 'U' ∉ markChars n.debug := by
    cases n.debug <;> decide
  have hcore := core_append n []
  rw [List.append_nil, List.append_nil] at hcore
  refine ⟨"ncrustify".toList ++ (markChars n.debug ++ '-' ::
    (n.major ++ '.' :: (n.minor ++ '.' :: n.patch))), hcore, ?_⟩
  have hmajor := notMem_of_mem_digitRun hruns.major hcapital
  have hminor := notMem_of_mem_digitRun hruns.minor hcapital
  have hpatch := notMem_of_mem_digitRun hruns.patch hcapital
  have hpoint : 'U' ≠ '.' := by decide
  have hhyphen : 'U' ≠ '-' := by decide
  simp only [List.mem_append, List.mem_cons, hletters, hmark, hmajor, hminor, hpatch, hpoint,
    hhyphen, or_self, not_false_eq_true]

/-- A word that begins in front of another one does not reach into it. -/
lemma not_straddles {front word rest post : List Char} {n : VersionName} (hruns : n.HasRuns)
    (hfront : NoWordIn front) (hne : front ≠ [])
    (htext : front ++ (n.core ++ rest) = word ++ post) : word ∉ namePattern := by
  intro hword
  rcases List.append_eq_append_iff.mp htext with ⟨inside, rfl, hinside⟩ | ⟨behind, hbehind, -⟩
  · obtain ⟨tail, htail, hcapital⟩ := capital_notMem_tail hword
    obtain ⟨tail', htail', -⟩ := capital_notMem_tail (core_mem hruns)
    obtain ⟨c, front, rfl⟩ := List.exists_cons_of_ne_nil hne
    rw [List.cons_append, List.cons.injEq] at htail
    cases inside with
    | nil => exact hfront [] _ [] (by simp) hword
    | cons d inside =>
      rw [htail', List.cons_append, List.cons_append, List.cons.injEq] at hinside
      apply hcapital
      rw [← htail.2, ← hinside.1]
      simp
  · exact hfront [] word behind hbehind hword

/-- A name is the leftmost one if there is no word of the pattern in front of it. -/
lemma leftmostName_of_noWordIn {pre post : List Char} {n : VersionName} (hpre : NoWordIn pre)
    (hread : n.ReadBefore post) : LeftmostName (pre ++ (n.core ++ post)) pre n post where
  text_eq := rfl
  read := hread
  leftmost := by
    intro pre' word post' htext hword
    rcases List.append_eq_append_iff.mp htext with ⟨front, hlonger, -⟩ | ⟨front, rfl, hfront⟩
    · rw [hlonger, List.length_append]
      exact Nat.le_add_right _ _
    · by_cases hne : front = []
      · simp [hne]
      · have hno : NoWordIn front := by
          rintro a w b rfl
          exact hpre (pre' ++ a) w b (by simp)
        exact absurd hword (not_straddles hread.runs hno hne hfront.symm)

/-! ## Behind a name -/

/-- A text does not go on with the number in front of it, and is not taken for a suffix. -/
def EndsName (cs : List Char) : Prop :=
  NoDigitFirst cs ∧ ∀ c, ¬ BeginsWithSuffix cs c

/-- A name is read in front of its own suffix and of any text behind that, and a name without a
suffix in front of any text that ends it. -/
lemma readBefore_suffixChars {n : VersionName} {post : List Char} (hruns : n.HasRuns)
    (hletter : ∀ c, n.suffix = some c → 'a' ≤ c ∧ c ≤ 'z')
    (hpost : n.suffix = none → EndsName post) :
    n.ReadBefore (n.suffixChars ++ post) := by
  unfold suffixChars
  cases hsuffix : n.suffix with
  | none =>
    obtain ⟨hdigit, hno⟩ := hpost hsuffix
    refine ⟨hruns, hdigit, ?_⟩
    intro c
    rw [hsuffix]
    exact iff_of_false nofun (hno c)
  | some d =>
    refine ⟨hruns, ?_, ?_⟩
    · intro c hc
      obtain rfl := Option.some.inj hc
      decide
    · intro c
      rw [hsuffix, Option.some.injEq]
      constructor
      · rintro rfl
        exact ⟨⟨post, rfl⟩, hletter d hsuffix⟩
      · rintro ⟨⟨rest, hrest⟩, -⟩
        simp only [List.cons_append, List.cons.injEq, true_and] at hrest
        exact hrest.1.symm

/-- A version is read from its own text wherever that stands. -/
lemma parse?_in_context {n : VersionName} {v : Version} (pre post : String) (hruns : n.HasRuns)
    (hletter : ∀ c, n.suffix = some c → 'a' ≤ c ∧ c ≤ 'z') (hfit : n.NumbersFit)
    (hspells : n.Spells v) (hpre : NoWordIn pre.toList)
    (hpost : n.suffix = none → EndsName post.toList) :
    Version.parse? (pre ++ v.full ++ post) = some v := by
  have htext : (pre ++ v.full ++ post).toList
      = pre.toList ++ (n.core ++ (n.suffixChars ++ post.toList)) := by
    simp [hspells.full]
  have hleftmost := leftmostName_of_noWordIn hpre (readBefore_suffixChars hruns hletter hpost)
  rw [← htext] at hleftmost
  exact parse?_eq_some_iff.mpr ⟨_, n, _, hleftmost, hfit, hspells⟩

/-- There is no word in an empty text. -/
lemma noWordIn_nil : NoWordIn [] := find?_eq_none_iff.mp rfl

/-- The end of a text ends a name. -/
lemma endsName_nil : EndsName [] := by
  refine ⟨nofun, ?_⟩
  rintro c ⟨⟨rest, hrest⟩, -⟩
  cases hrest

/-! ## Numbers as they are written -/

/-- A name whose numbers are written in decimal notation. -/
def decimalName (major minor patch : UInt32) (debug : Bool) (suffix : Option Char) :
    VersionName where
  debug := debug
  major := (toString major.toNat).toList
  minor := (toString minor.toNat).toList
  patch := (toString patch.toNat).toList
  suffix := suffix

/-- The debug mark as it is written. -/
def markText (debug : Bool) : String := if debug then "_d" else ""

/-- A suffix as it is written. -/
def suffixText : Option Char → String
  | none => ""
  | some c => "_" ++ String.singleton c

/-- The form of the pattern, with numbers in decimal notation. -/
def decimalText (major minor patch : UInt32) (debug : Bool) (suffix : Option Char) : String :=
  "Uncrustify" ++ markText debug ++ "-" ++ toString major.toNat ++ "."
    ++ toString minor.toNat ++ "." ++ toString patch.toNat ++ suffixText suffix

section Decimal

variable (major minor patch : UInt32) (debug : Bool) (suffix : Option Char)

/-- A word is written as a run of digits that fits and has its value. -/
lemma decimal_spec (w : UInt32) : (toString w.toNat).toList ∈ digitRun ∧
    FitsWord (toString w.toNat).toList ∧ runValue (toString w.toNat).toList = w.toNat := by
  obtain ⟨hne, hdigits, hvalue⟩ := Text.number?_eq_some_iff.mp (Text.number?_repr w.toNat)
  have hrun : (toString w.toNat).toList ∈ digitRun :=
    mem_digitRun.mpr ⟨hne, fun c hc => Text.isDigit_of_ascii (hdigits c hc)⟩
  refine ⟨hrun, ⟨hdigits, ?_⟩, hvalue⟩
  rw [show runValue (toString w.toNat).toList = w.toNat from hvalue]
  exact w.toNat_lt

/-- A number in decimal notation is a run of digits. -/
lemma hasRuns_decimalName : (decimalName major minor patch debug suffix).HasRuns :=
  ⟨(decimal_spec major).1, (decimal_spec minor).1, (decimal_spec patch).1⟩

/-- A number in decimal notation fits into the word that it is the notation of. -/
lemma numbersFit_decimalName : (decimalName major minor patch debug suffix).NumbersFit :=
  ⟨(decimal_spec major).2.1, (decimal_spec minor).2.1, (decimal_spec patch).2.1⟩

/-- The form of the pattern is the name with its suffix. -/
lemma toList_decimalText : (decimalText major minor patch debug suffix).toList =
    (decimalName major minor patch debug suffix).core ++
      (decimalName major minor patch debug suffix).suffixChars := by
  have hmark : (markText debug).toList = markChars debug := by
    cases debug <;> rfl
  have hsuffix : (suffixText suffix).toList =
      (decimalName major minor patch debug suffix).suffixChars := by
    cases suffix <;> simp [suffixText, decimalName, suffixChars]
  unfold decimalText
  simp only [String.toList_append, hmark, hsuffix]
  rfl

/-- A name in decimal notation spells the version with its numbers and marks. -/
lemma spells_decimalName : (decimalName major minor patch debug suffix).Spells
    { full := decimalText major minor patch debug suffix, major, minor, patch, debug, suffix } where
  full := toList_decimalText major minor patch debug suffix
  major := (decimal_spec major).2.2.symm
  minor := (decimal_spec minor).2.2.symm
  patch := (decimal_spec patch).2.2.symm
  debug := rfl
  suffix := rfl

end Decimal

/-! ## Reading again -/

/-- **A version is read from its own text in any context.** The text of a version that was read from
an output is read as that version, and so is any text that has it in it, as long as there is no word
of the pattern in front of it and, if the version has no suffix, what follows neither begins with a
digit nor with an underscore and a letter.  And whatever three words, mark and suffix there are, the
form of the pattern with them in decimal notation is read as the version with these parts. -/
theorem reread_in_context :
    (∀ output v, Version.parse? output = some v →
      Version.parse? v.text = some v ∧
        ∀ pre post : String, NoWordIn pre.toList → (v.suffix = none → EndsName post.toList) →
          Version.parse? (pre ++ v.full ++ post) = some v) ∧
    (∀ major minor patch debug suffix, (∀ c, suffix = some c → 'a' ≤ c ∧ c ≤ 'z') →
      Version.parse? (decimalText major minor patch debug suffix) =
        some { full := decimalText major minor patch debug suffix,
               major, minor, patch, debug, suffix }) := by
  constructor
  · intro output v hparse
    obtain ⟨before, n, behind, hn, hfit, hspells⟩ := parse?_eq_some_iff.mp hparse
    have hcontext : ∀ pre post : String, NoWordIn pre.toList →
        (v.suffix = none → EndsName post.toList) →
          Version.parse? (pre ++ v.full ++ post) = some v := by
      intro pre post hpre hpost
      refine parse?_in_context pre post hn.read.runs ?_ hfit hspells hpre ?_
      · intro c hc
        exact ((hn.read.suffix_iff c).mp hc).2
      · rwa [← hspells.suffix]
    refine ⟨?_, hcontext⟩
    have hself := hcontext "" "" noWordIn_nil fun _ => endsName_nil
    rwa [String.empty_append, String.append_empty] at hself
  · intro major minor patch debug suffix hletter
    have hself := parse?_in_context "" ""
      (hasRuns_decimalName major minor patch debug suffix) hletter
      (numbersFit_decimalName major minor patch debug suffix)
      (spells_decimalName major minor patch debug suffix) noWordIn_nil fun _ => endsName_nil
    rwa [String.empty_append, String.append_empty] at hself

/-- A debug build with a suffix. -/
def debugBuild : Version :=
  { full := "Uncrustify_d-0.72.0_f", major := 0, minor := 72, patch := 0, debug := true,
    suffix := some 'f' }

/-- A release. -/
def release : Version :=
  { full := "Uncrustify-0.73.0", major := 0, minor := 73, patch := 0, debug := false,
    suffix := none }

/-- Behind the beginning of another name, and in front of digits or of a suffix that is none. -/
theorem reread_in_context_besideFragments :
    Version.parse? "version: Uncrustify_d-0.72.0_f (debug)" = some debugBuild ∧
      Version.parse? "Uncrustify-0.73.0\n" = some release ∧
      NoWordIn "Uncrustify-1.2.".toList ∧ EndsName "_F".toList ∧
      Version.parse? ("Uncrustify-1.2." ++ debugBuild.full ++ "7_x") = some debugBuild ∧
      Version.parse? ("Uncrustify-1.2." ++ release.full ++ "_F") = some release ∧
      Version.parse? (decimalText 0 4294967295 7 true (some 'z')) =
        some { full := decimalText 0 4294967295 7 true (some 'z'), major := 0,
               minor := 4294967295, patch := 7, debug := true, suffix := some 'z' } := by
  have hdebug : Version.parse? "version: Uncrustify_d-0.72.0_f (debug)" = some debugBuild := by
    decide +kernel
  have hrelease : Version.parse? "Uncrustify-0.73.0\n" = some release := by
    decide +kernel
  have hpre : NoWordIn "Uncrustify-1.2.".toList := find?_eq_none_iff.mp (by decide +kernel)
  have hpost : EndsName "_F".toList := by
    refine ⟨?_, ?_⟩
    · intro c hc
      obtain rfl := Option.some.inj hc
      decide
    · intro c hc
      have hnone : suffixOf "_F".toList = none := by decide
      rw [suffixOf_eq_some_iff.mpr hc] at hnone
      cases hnone
  obtain ⟨hreread, hdecimal⟩ := reread_in_context
  exact ⟨hdebug, hrelease, hpre, hpost, (hreread _ _ hdebug).2 _ _ hpre nofun,
    (hreread _ _ hrelease).2 _ _ hpre fun _ => hpost,
    hdecimal 0 4294967295 7 true (some 'z') (by
      intro c hc
      obtain rfl := Option.some.inj hc
      decide)⟩

end SourceFormat.Formatter
