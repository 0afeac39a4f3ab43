import Mathlib
import SourceFormat.Proofs.Text.Utf8
import SourceFormat.Proofs.Toml.Assignments
import SourceFormat.Settings.Store

/-!
# Settings survive being written and read

The written form of settings is a document of three or four assignments.  What each of them says is
read back (`parse?_assignments`), and although the fields are read in the order of their keys and
not of their lines (`inKeyOrder_eq`), nothing is lost: `written_read_back`.
-/

namespace SourceFormat.Settings

open Toml

/-! ## The lines of the written form -/

/-- No field needs quotes around its name. -/
lemma bare_names : ∀ name ∈ GroupField.names fields,
    name.toList ≠ [] ∧ ∀ c ∈ name.toList, isKeyChar c = true := by
  intro name hname
  simp only [GroupField.names, fields, List.map_cons, List.map_nil, List.mem_cons,
    List.not_mem_nil, or_false] at hname
  rcases hname with rfl | rfl | rfl | rfl <;> exact ⟨by simp, by simp [isKeyChar]⟩

/-- The lines of the written form, when the paths have texts. -/
def lines (executable : String) (config : Option String) (enabled : Bool) (millis : UInt64) :
    List Assignment :=
  [⟨"executable_path", writeString executable, .string executable⟩]
    ++ (config.map fun t => ⟨"config_path", writeString t, .string t⟩).toList
    ++ [⟨"formatting_enabled", if enabled then "true" else "false", .boolean enabled⟩,
      ⟨"timeout_ms", toString millis.toNat, .integer millis.toNat⟩]

section Lines

variable (executable : String) (config : Option String) (enabled : Bool) (millis : UInt64)

/-- Every line of written settings is an assignment that is read as it is meant. -/
lemma sound_lines : ∀ a ∈ lines executable config enabled millis, a.Sound := by
  have hmillis : (millis.toNat : Int) < integerBound := by
    have := millis.toNat_lt
    unfold integerBound
    omega
  have hsound : ∀ a : Assignment, a.key ∈ GroupField.names fields →
      Spells a.value.toList a.scalar → a.Sound := by
    intro a hkey hspells
    obtain ⟨hne, hbare⟩ := bare_names a.key hkey
    exact ⟨hne, hbare, hspells⟩
  intro a ha
  simp only [lines, List.mem_append, List.mem_cons, List.not_mem_nil, or_false,
    Option.mem_toList, Option.map_eq_some_iff] at ha
  rcases ha with (rfl | ⟨t, -, rfl⟩) | rfl | rfl
  · exact hsound _ (by simp [GroupField.names, fields]) (spells_string executable)
  · exact hsound _ (by simp [GroupField.names, fields]) (spells_string t)
  · exact hsound _ (by simp [GroupField.names, fields]) (spells_boolean enabled)
  · exact hsound _ (by simp [GroupField.names, fields]) (spells_natural hmillis)

/-- The lines of written settings have different keys. -/
lemma nodup_keys_lines : ((lines executable config enabled millis).map Assignment.key).Nodup := by
  cases config <;> simp [lines]

/-- Settings whose paths have texts are written as their lines. -/
lemma write?_ofString :
    write? ⟨Path.ofString executable, config.map Path.ofString, enabled, millis⟩
      = some (String.join ((lines executable config enabled millis).map Assignment.text)) := by
  have htext : ∀ t, (Path.ofString t).text? = some t := fun t => Utf8.decode?_encode t
  cases config with
  | none =>
    rw [write?, htext]
    simp [lines, line, Assignment.text, String.join]
  | some t =>
    simp [write?, htext, lines, line, Assignment.text, String.join, String.append_assoc]

/-! ## Reading the lines -/

/-- A count of milliseconds is read as itself. -/
lemma word64_of_toNat (span : Span) :
    Item.word64 (.scalar span (.integer millis.toNat)) = .ok millis := by
  have hmillis := millis.toNat_lt
  have hrange : (0 : Int) ≤ millis.toNat ∧ (millis.toNat : Int) ≤ words64 - 1 := by
    unfold words64
    omega
  rw [Item.word64, Item.bounded, if_pos hrange]
  simp [Except.map]

section Fields

variable (s : Settings) (place span : Span)

/-- The executable is read from its line. -/
lemma readEntry_executable (t : String) :
    readEntry fields s (⟨"executable_path", place⟩, .scalar span (.string t))
      = .ok { s with executable := Path.ofString t } := by
  simp [readEntry, fields, Item.path, Except.map]

/-- The option file is read from its line. -/
lemma readEntry_config (t : String) :
    readEntry fields s (⟨"config_path", place⟩, .scalar span (.string t))
      = .ok { s with config := some (Path.ofString t) } := by
  simp [readEntry, fields, Item.path, Except.map]

/-- Whether formatting is enabled is read from its line. -/
lemma readEntry_enabled :
    readEntry fields s (⟨"formatting_enabled", place⟩, .scalar span (.boolean enabled))
      = .ok { s with formattingEnabled := enabled } := by
  simp [readEntry, fields, Item.bool, Except.map]

/-- The timeout is read from its line. -/
lemma readEntry_timeout :
    readEntry fields s (⟨"timeout_ms", place⟩, .scalar span (.integer millis.toNat))
      = .ok { s with timeoutMillis := millis } := by
  simp [readEntry, fields, word64_of_toNat, Except.map]

end Fields

/-- The entries that the lines give are read as the settings. -/
lemma readEntries_of_gives {es : Entries}
    (hes : List.Forall₂ Assignment.Gives (lines executable config enabled millis) es) :
    readEntries fields {} es
      = .ok ⟨Path.ofString executable, config.map Path.ofString, enabled, millis⟩ := by
  cases config with
  | none =>
    obtain _ | ⟨he₁, _ | ⟨he₂, _ | ⟨he₃, _ | _⟩⟩⟩ := hes
    obtain ⟨k₁, i₁, rfl⟩ := he₁.eq
    obtain ⟨k₂, i₂, rfl⟩ := he₂.eq
    obtain ⟨k₃, i₃, rfl⟩ := he₃.eq
    rw [readEntries, inKeyOrder_eq .rfl (by simp only [List.map_cons, List.map_nil]; decide)]
    simp only [List.foldlM_cons, List.foldlM_nil, readEntry_executable, readEntry_enabled,
      readEntry_timeout]
    rfl
  | some t =>
    obtain _ | ⟨he₁, _ | ⟨he₂, _ | ⟨he₃, _ | ⟨he₄, _ | _⟩⟩⟩⟩ := hes
    obtain ⟨k₁, i₁, rfl⟩ := he₁.eq
    obtain ⟨k₂, i₂, rfl⟩ := he₂.eq
    obtain ⟨k₃, i₃, rfl⟩ := he₃.eq
    obtain ⟨k₄, i₄, rfl⟩ := he₄.eq
    -- The option file is written behind the formatter and read before it.
    rw [readEntries,
      inKeyOrder_eq (.swap _ _ _) (by simp only [List.map_cons, List.map_nil]; decide)]
    simp only [List.foldlM_cons, List.foldlM_nil, readEntry_executable, readEntry_config,
      readEntry_enabled, readEntry_timeout]
    rfl

/-- Settings whose paths have texts are read back from their lines. -/
lemma parse_lines :
    parse (String.join ((lines executable config enabled millis).map Assignment.text))
      = .ok ⟨Path.ofString executable, config.map Path.ofString, enabled, millis⟩ := by
  obtain ⟨es, hes, hparse⟩ := parse?_assignments (sound_lines executable config enabled millis)
    (nodup_keys_lines executable config enabled millis)
  simp only [parse, readDocument, hparse, readEntries_of_gives executable config enabled millis hes]
  rfl

end Lines

/-! ## The round trip -/

/-- Every path of the settings is the UTF-8 spelling of a text. -/
def PathsAreText (s : Settings) : Prop :=
  ∀ p ∈ s.executable :: s.config.toList, ∃ t, p = Path.ofString t

/-- A path that is no text has none. -/
lemma text?_eq_none {p : Path} (h : ∀ t, p ≠ Path.ofString t) : p.text? = none := by
  rw [Option.eq_none_iff_forall_ne_some]
  intro t ht
  have hbytes : p.bytes = Utf8.encode t := Utf8.decode?_eq_some_iff.mp ht
  exact h t (congrArg Path.mk hbytes)

/-- Settings with a path that is no text have no written form. -/
lemma write?_eq_none {s : Settings} (h : ¬ s.PathsAreText) : s.write? = none := by
  simp only [PathsAreText, not_forall, not_exists] at h
  obtain ⟨p, hp, hne⟩ := h
  have hnone := text?_eq_none hne
  rw [List.mem_cons, Option.mem_toList] at hp
  rcases hp with rfl | hp
  · rw [write?, hnone]
    rfl
  · rw [write?, hp]
    cases s.executable.text? <;> simp [hnone]

/-- Settings whose paths are text are read back from their written form. -/
lemma exists_write_parse {s : Settings} (h : s.PathsAreText) :
    ∃ text, s.write? = some text ∧ parse text = .ok s := by
  obtain ⟨path, config, enabled, millis⟩ := s
  obtain ⟨executable, rfl⟩ := h path List.mem_cons_self
  obtain ⟨texts, rfl⟩ : ∃ texts : Option String, config = texts.map Path.ofString := by
    cases config with
    | none => exact ⟨none, rfl⟩
    | some p =>
      obtain ⟨t, rfl⟩ := h p (by simp)
      exact ⟨some t, rfl⟩
  have hwrite := write?_ofString executable texts enabled millis
  exact ⟨_, hwrite, parse_lines executable texts enabled millis⟩

/-- **Settings are read back as they were written.** Whatever characters the paths hold and whatever
the timeout is, settings whose paths are text have a written form; reading it gives the same
settings, and no other settings are written so: an option file that is the empty path is never
mistaken for one that is not set.  Settings with a path that is no text have no written form, and
keeping them fails without a trace. -/
theorem written_read_back (s : Settings) :
    (s.PathsAreText → ∃ text, s.write? = some text ∧ parse text = .ok s ∧
      ∀ s', s'.write? = some text → s' = s) ∧
    (¬ s.PathsAreText → s.write? = none ∧
      ∀ disk tree place, save disk tree place s = (tree, .error .unwritable)) := by
  refine ⟨fun h => ?_, fun h => ?_⟩
  · obtain ⟨text, hwrite, hparse⟩ := exists_write_parse h
    refine ⟨text, hwrite, hparse, ?_⟩
    intro s' hs'
    have h' : s'.PathsAreText := by
      by_contra hne
      rw [write?_eq_none hne] at hs'
      cases hs'
    obtain ⟨text', hwrite', hparse'⟩ := exists_write_parse h'
    have htext : text' = text := Option.some.inj (hwrite'.symm.trans hs')
    rw [htext, hparse] at hparse'
    exact (Except.ok.inj hparse').symm
  · have hwrite := write?_eq_none h
    refine ⟨hwrite, ?_⟩
    intro disk tree place
    rw [save, hwrite]

/-- A formatter whose path has runs of both quotes, a line end, a backslash and controls, an option
file that is the empty path, and the longest timeout. -/
def awkward : Settings where
  executable := Path.ofString "''' \"\"\"\n\\\r\t\x00'\""
  config := some (Path.ofString "")
  formattingEnabled := false
  timeoutMillis := 18446744073709551615

/-- The awkward settings are read back, and a formatter at a path that is no text is not written. -/
theorem written_read_back_awkward :
    (∃ text, awkward.write? = some text ∧ parse text = .ok awkward) ∧
    write? { executable := ⟨[0xFF]⟩ } = none := by
  have htext : awkward.PathsAreText := by
    intro p hp
    simp only [awkward, Option.toList_some, List.mem_cons, List.not_mem_nil, or_false] at hp
    rcases hp with rfl | rfl
    · exact ⟨_, rfl⟩
    · exact ⟨_, rfl⟩
  have hbytes : ¬ PathsAreText { executable := ⟨[0xFF]⟩ } := by
    intro h
    obtain ⟨t, ht⟩ := h ⟨[0xFF]⟩ List.mem_cons_self
    have hdecode : Utf8.decode? [0xFF] = some t :=
      Utf8.decode?_eq_some_iff.mpr (congrArg Path.bytes ht)
    cases hdecode
  obtain ⟨text, hwrite, hparse, -⟩ := (written_read_back awkward).1 htext
  exact ⟨⟨text, hwrite, hparse⟩, ((written_read_back _).2 hbytes).1⟩

end SourceFormat.Settings
