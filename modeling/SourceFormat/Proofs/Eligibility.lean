import Mathlib
import SourceFormat.Settings.Basic
import SourceFormat.Proofs.Files.LastComponent

/-!
# Which paths are formatted

Whether the formatter knows a file is decided by its extension, and so by the last component of its
path alone.  `supported_iff_spelled` says how the paths are spelled that it knows: a directory or
none, a name that ends in a dot and a known extension with something before the dot, and behind it
nothing but slashes and dots behind slashes.
-/

namespace SourceFormat

open SourceFormat.Path (BeforePiece Trailing Component slash dot said lastSaid?)

variable {p q : Path}

/-- A supported extension is not empty, and neither ends a component nor begins an extension. -/
lemma plain_of_mem_supportedExtensions : ∀ e ∈ supportedExtensions,
    Utf8.encode e ≠ [] ∧ slash ∉ Utf8.encode e ∧ dot ∉ Utf8.encode e := by
  decide

/-- A path is supported if its extension is one of the list. -/
lemma isExtensionSupported_iff : isExtensionSupported p = true ↔
    ∃ e ∈ supportedExtensions, p.extension? = some (Utf8.encode e) := by
  unfold isExtensionSupported
  cases p.extension? with
  | none => simp
  | some behind =>
    simp only [List.any_eq_true, decide_eq_true_eq, Option.some.injEq]
    exact exists_congr fun e => and_congr_right fun _ => eq_comm

/-- A stem, a dot and a known extension are a name. -/
lemma isName_of_extension {stem : Bytes} {e : String} (hstem : slash ∉ stem) (hne : stem ≠ [])
    (he : e ∈ supportedExtensions) : Path.IsName (stem ++ dot :: Utf8.encode e) := by
  obtain ⟨hnonempty, hslash, -⟩ := plain_of_mem_supportedExtensions e he
  have hlength : 3 ≤ (stem ++ dot :: Utf8.encode e).length := by
    have := List.length_pos_of_ne_nil hne
    have := List.length_pos_of_ne_nil hnonempty
    simp only [List.length_append, List.length_cons]
    omega
  refine ⟨?_, ?_, ?_, ?_⟩
  · rw [List.mem_append, List.mem_cons, not_or, not_or]
    exact ⟨hstem, by decide, hslash⟩
  all_goals
    intro h
    rw [h] at hlength
    revert hlength
    decide

/-! ## The last component -/

/-- Only the last component counts. -/
lemma isExtensionSupported_congr (h : q.fileName? = p.fileName?) :
    isExtensionSupported q = isExtensionSupported p := by
  rw [isExtensionSupported, isExtensionSupported, Path.extension?, Path.extension?, h]

/-- Paths that end in the same component are both known or both unknown. -/
lemma isExtensionSupported_of_getLast? (h : q.components.getLast? = p.components.getLast?) :
    isExtensionSupported q = isExtensionSupported p := by
  refine isExtensionSupported_congr ?_
  rw [Path.fileName?, Path.fileName?, h]

/-- The pieces that say something decide. -/
lemma isExtensionSupported_of_lastSaid? (h : lastSaid? q.bytes = lastSaid? p.bytes) :
    isExtensionSupported q = isExtensionSupported p := by
  refine isExtensionSupported_congr (Option.ext fun name => ?_)
  rw [Path.fileName?_eq_some_iff_lastSaid?, Path.fileName?_eq_some_iff_lastSaid?, h]

/-- What is said between what stands in front of the last component and what trails behind it. -/
lemma lastSaid?_spelled {before last trail : Bytes} (hbefore : BeforePiece before)
    (hslash : slash ∉ last) (hne : last ≠ []) (hdot : last ≠ [dot]) (htrail : Trailing trail) :
    lastSaid? (before ++ last ++ trail) = Component.ofPiece? last := by
  obtain ⟨c, hc⟩ : ∃ c, Component.ofPiece? last = some c := by
    rw [← Option.ne_none_iff_exists', ne_eq, Path.ofPiece?_eq_none_iff, not_or]
    exact ⟨hne, hdot⟩
  rw [hc, Path.lastSaid?_eq_some_iff]
  exact ⟨before, last, trail, rfl, hbefore, hslash, hc, htrail⟩

/-- Slashes and dots behind slashes say nothing, wherever a piece ends. -/
lemma said_insert {before trail behind : Bytes} (htrail : Trailing trail)
    (hbehind : behind = [] ∨ behind.head? = some slash) :
    said (before ++ trail ++ behind) = said (before ++ behind) := by
  cases behind with
  | nil => rw [List.append_nil, List.append_nil, htrail.said_append]
  | cons b behind =>
    obtain rfl : b = slash := by simpa using hbehind
    rw [Path.said_append_slash, Path.said_append_slash, htrail.said_append]

/-! ## How the paths are spelled -/

/-- How the paths are spelled that the formatter knows. -/
lemma isExtensionSupported_iff_spelled : isExtensionSupported p = true ↔
    ∃ directory stem e trail, p.bytes = directory ++ stem ++ dot :: Utf8.encode e ++ trail ∧
      BeforePiece directory ∧ stem ≠ [] ∧ slash ∉ stem ∧ e ∈ supportedExtensions ∧
      Trailing trail := by
  simp only [isExtensionSupported_iff, Path.extension?_eq_some_iff, Path.fileName?_eq_some_iff]
  constructor
  · rintro ⟨e, he, stem, ⟨hname, directory, trail, hp, hdirectory, htrail⟩, hne, -⟩
    have hslash : slash ∉ stem := fun h => hname.slash (List.mem_append_left _ h)
    exact ⟨directory, stem, e, trail, by simp [hp], hdirectory, hne, hslash, he, htrail⟩
  · rintro ⟨directory, stem, e, trail, hp, hdirectory, hne, hslash, he, htrail⟩
    have hname := isName_of_extension hslash hne he
    have hdot := (plain_of_mem_supportedExtensions e he).2.2
    exact ⟨e, he, stem, ⟨hname, directory, trail, by simp [hp], hdirectory, htrail⟩, hne, hdot⟩

/-- **The paths that the formatter knows are told by their spelling.**  For every path, whatever
bytes it is made of:

* The formatter knows it exactly if it is a directory with its slash, or nothing; a stem, which is
  not empty and has no slash; a dot and one of the known extensions, in exactly its case; and behind
  it any number of slashes and of dots behind slashes.
* Only the last component counts: another path that ends in the same one gets the same answer, and
  so does the path with another directory, or none, before its last component.
* Slashes and dots behind slashes make no difference where they say nothing: before another slash
  and at the end.  In particular paths of one document get the same answer.
* A file is formatted exactly if formatting is enabled and the formatter knows its path. -/
theorem supported_iff_spelled (p : Path) :
    (isExtensionSupported p = true ↔
      ∃ directory stem e trail, p.bytes = directory ++ stem ++ dot :: Utf8.encode e ++ trail ∧
        BeforePiece directory ∧ stem ≠ [] ∧ slash ∉ stem ∧ e ∈ supportedExtensions ∧
        Trailing trail) ∧
    (∀ q : Path, q.components.getLast? = p.components.getLast? →
      isExtensionSupported q = isExtensionSupported p) ∧
    (∀ directory directory' last trail, p.bytes = directory ++ last ++ trail →
      BeforePiece directory → BeforePiece directory' → slash ∉ last → last ≠ [] → last ≠ [dot] →
      Trailing trail →
      isExtensionSupported ⟨directory' ++ last ++ trail⟩ = isExtensionSupported p) ∧
    (∀ before trail behind, p.bytes = before ++ behind → Trailing trail →
      (behind = [] ∨ behind.head? = some slash) →
      isExtensionSupported ⟨before ++ trail ++ behind⟩ = isExtensionSupported p) ∧
    (∀ q : Path, q.key = p.key → isExtensionSupported q = isExtensionSupported p) ∧
    ∀ s : Settings, s.canFormat p = true ↔
      s.formattingEnabled = true ∧ isExtensionSupported p = true := by
  refine ⟨isExtensionSupported_iff_spelled, fun q => isExtensionSupported_of_getLast?,
    ?directory, ?trailing, fun q h => ?document, fun s => ?settings⟩
  case directory =>
    intro directory directory' last trail hp hdirectory hdirectory' hslash hne hdot htrail
    refine isExtensionSupported_of_lastSaid? ?_
    rw [hp, lastSaid?_spelled hdirectory hslash hne hdot htrail,
      lastSaid?_spelled hdirectory' hslash hne hdot htrail]
  case trailing =>
    intro before trail behind hp htrail hbehind
    refine isExtensionSupported_of_lastSaid? ?_
    rw [hp, lastSaid?, lastSaid?, said_insert htrail hbehind]
  case document =>
    have hcomponents : q.components = p.components := h
    exact isExtensionSupported_of_getLast? (by rw [hcomponents])
  case settings => rw [Settings.canFormat, Bool.and_eq_true]

/-- A hidden file whose name has a dot at its beginning only has no extension. -/
example : isExtensionSupported (Path.ofString "src//.d/./x.tar.c++/.//") = true ∧
    isExtensionSupported (Path.ofString "src/.c") = false := by
  decide

end SourceFormat
