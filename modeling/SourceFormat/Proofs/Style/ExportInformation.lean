import Mathlib
import SourceFormat.Proofs.Style.ExportedOptions
import SourceFormat.Proofs.Text.Utf8

/-!
# What an exported style keeps

An exported file does not keep everything: a preference for smart tabs means nothing without tabs, a
label that is placed by the code around it has no counterpart, the largest counts are told apart no
more, and of three counts of kept blank lines one option knows only the largest.
`exported_eq_iff` says that this is all that is lost: two styles are exported to the same bytes
exactly if they agree on what is left (`KeepsAlike`).

That the bytes tell so much is the reader's work: what a text says is read off it, so equal texts
come from equal options (`exportOptions_eq_of_render`).
-/

namespace SourceFormat.Style

/-- Two styles agree on everything that an exported file keeps. -/
structure KeepsAlike (a b : Style) : Prop where
  flushTopLevelMembers : a.flushTopLevelMembers = b.flushTopLevelMembers
  size : a.indent.size = b.indent.size
  continuation : a.indent.continuation = b.indent.continuation
  keepOnEmptyLines : a.indent.keepOnEmptyLines = b.indent.keepOnEmptyLines
  useTabs : a.indent.useTabs = b.indent.useTabs
  /-- Smart tabs are tabs. -/
  smartTabs : a.indent.useTabs = true → a.indent.smartTabs = b.indent.smartTabs
  labelColumn : a.indent.labelColumn = b.indent.labelColumn
  spacing : a.spacing = b.spacing
  beforePackage : a.blankLines.beforePackage = b.blankLines.beforePackage
  keepInCode : min a.blankLines.keepInCode.toNat countCap =
    min b.blankLines.keepInCode.toNat countCap
  beforeMethodBody : min a.blankLines.beforeMethodBody.toNat countCap =
    min b.blankLines.beforeMethodBody.toNat countCap
  aroundClass : min a.blankLines.aroundClass.toNat countCap =
    min b.blankLines.aroundClass.toNat countCap
  /-- Of the three counts of blank lines that are kept, the largest. -/
  mostKept :
    min (max (max a.blankLines.keepInDeclarations.toNat a.blankLines.keepInCode.toNat)
      a.blankLines.keepBeforeHeader.toNat) countCap =
    min (max (max b.blankLines.keepInDeclarations.toNat b.blankLines.keepInCode.toNat)
      b.blankLines.keepBeforeHeader.toNat) countCap

/-- The options agree exactly if what the file keeps agrees. -/
lemma exportOptions_eq_iff {a b : Style} (ha : ¬ a.indent.LabelUnderflows)
    (hb : ¬ b.indent.LabelUnderflows) : exportOptions a = exportOptions b ↔ KeepsAlike a b := by
  rw [exportOptions_inj, indentOptions_inj ha hb, spacingOptions_inj, blankLineOptions_inj,
    toNat_mostKept, toNat_mostKept]
  constructor
  · rintro ⟨⟨hflush, hsize, hcont, ⟨htabs, hsmart⟩, hkeep, hlabel⟩, hspacing,
      hpackage, hmost, hcode, hbody, hclass⟩
    exact ⟨hflush, hsize, hcont, hkeep, htabs, hsmart, hlabel, hspacing, hpackage, hcode, hbody,
      hclass, hmost⟩
  · intro h
    exact ⟨⟨h.flushTopLevelMembers, h.size, h.continuation, ⟨h.useTabs, h.smartTabs⟩,
      h.keepOnEmptyLines, h.labelColumn⟩, h.spacing, h.beforePackage, h.mostKept, h.keepInCode,
      h.beforeMethodBody, h.aroundClass⟩

/-- A reader finds the options of a style in its text. -/
lemma read_render_exported (s : Style) :
    (OptionFile.read s.exported.file.render).2 = exportOptions s := by
  have h := OptionFile.readsBack_render (f := s.exported.file) fun r hr =>
    readable_of_mem_exportOptions hr
  rw [h.read_eq]
  rfl

/-- From a rendered export its options can be told. -/
lemma exportOptions_eq_of_render {a b : Style}
    (h : a.exported.file.render = b.exported.file.render) : exportOptions a = exportOptions b := by
  rw [← read_render_exported a, h, read_render_exported]

/-- **What an exported file keeps.** Two styles whose label columns can be counted from zero are
exported to the same bytes exactly if they agree on the flags, the counts and the label column that
`KeepsAlike` lists. -/
theorem exported_eq_iff {a b : Style} (ha : ¬ a.indent.LabelUnderflows)
    (hb : ¬ b.indent.LabelUnderflows) :
    Utf8.encode a.exported.file.render = Utf8.encode b.exported.file.render ↔ KeepsAlike a b := by
  rw [← exportOptions_eq_iff ha hb]
  constructor
  · intro h
    exact exportOptions_eq_of_render (Utf8.encode_injective h)
  · intro h
    simp only [exported, h]

/-- A style that keeps as many blank lines in code as can be told apart. -/
def manyBlankLines : Style :=
  { blankLines := { keepInCode := 4294967294 } }

/-- A style that keeps one blank line more, some in declarations too, and has smart tabs without
tabs. -/
def moreBlankLines : Style :=
  { indent := { smartTabs := true },
    blankLines := { keepInCode := 4294967295, keepInDeclarations := 7 } }

/-- Counts too large to be told apart are rendered alike, and are told from the stock style. -/
theorem exported_eq_iff_manyBlankLines :
    ¬ manyBlankLines.indent.LabelUnderflows ∧ ¬ moreBlankLines.indent.LabelUnderflows ∧
      KeepsAlike manyBlankLines moreBlankLines ∧
      Utf8.encode manyBlankLines.exported.file.render =
        Utf8.encode moreBlankLines.exported.file.render ∧
      ¬ KeepsAlike manyBlankLines {} ∧
      Utf8.encode manyBlankLines.exported.file.render ≠
        Utf8.encode ({} : Style).exported.file.render := by
  have hmany : ¬ manyBlankLines.indent.LabelUnderflows := by
    simp [Indent.LabelUnderflows, manyBlankLines]
  have hmore : ¬ moreBlankLines.indent.LabelUnderflows := by
    simp [Indent.LabelUnderflows, moreBlankLines]
  have hstock : ¬ ({} : Style).indent.LabelUnderflows := by simp [Indent.LabelUnderflows]
  have halike : KeepsAlike manyBlankLines moreBlankLines := by constructor <;> decide
  have hapart : ¬ KeepsAlike manyBlankLines {} := fun h => absurd h.keepInCode (by decide)
  exact ⟨hmany, hmore, halike, (exported_eq_iff hmany hmore).mpr halike, hapart,
    fun h => hapart ((exported_eq_iff hmany hstock).mp h)⟩

end SourceFormat.Style
