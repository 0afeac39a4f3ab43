import Mathlib
import SourceFormat.Proofs.Style.ExportedOptions

/-!
# What an export reports as lost

Some numbers of a style have no counterpart in an option file, and another number is written in
their place: an offset of labels from the code around them becomes a column, and counts of newlines
end with the largest word.

* `numericOptions`: the numeric options, each with the integer that would express a style exactly.
* `emits_label`, `emits_of_mem`: the integers that are written.
* `losses_reported`: a value that is not the exact one is reported with both, and nothing else is,
  but for labels that stand out to the left of the code: they are put into the first column, and
  that is not taken for a loss.
* `unreported_losses`: so a style may be exported without a report and yet not exactly.
-/

namespace SourceFormat

namespace OptionFile

/-- Where no two options have one name, each of them is found by its name. -/
lemma get?_of_mem {f : OptionFile} (hnodup : (f.options.map (·.name)).Nodup) {r : OptionRecord}
    (hr : r ∈ f.options) : f.get? r.name = some r.value := by
  obtain ⟨comments, options⟩ := f
  unfold get?
  dsimp only at hnodup hr ⊢
  induction options with
  | nil => cases hr
  | cons first rest ih =>
    obtain ⟨hfirst, hrest⟩ := List.nodup_cons.mp hnodup
    rcases List.mem_cons.mp hr with rfl | hr
    · simp
    · have hne : first.name ≠ r.name := fun heq =>
        hfirst (List.mem_map.mpr ⟨r, hr, heq.symm⟩)
      rw [List.find?_cons_of_neg (by simpa using hne)]
      exact ih hrest hr

end OptionFile

namespace Style

/-! ## Numeric options -/

/-- A numeric option, with the integer that would express a style exactly. -/
structure NumericOption where
  name : String
  exact : Style → ℤ

/-- Where a label goes: a column counted from zero, or an offset from the code around it. -/
def Indent.exactLabel (i : Indent) : ℤ :=
  if i.labelAbsolute = true then i.label.toInt - 1 else i.label.toInt

/-- The newlines that leave so many blank lines behind a line. -/
def exactNewlines (blankLines : ℕ) : ℤ := blankLines + 1

/-- The numeric options.  At its start a file has no line that has to be ended before a blank
one. -/
def numericOptions : List NumericOption :=
  [⟨"indent_columns", fun s => s.indent.size.toNat⟩,
   ⟨"indent_continue", fun s => s.indent.continuation.toNat⟩,
   ⟨"indent_label", fun s => s.indent.exactLabel⟩,
   ⟨"nl_start_of_file", fun s => s.blankLines.beforePackage.toNat⟩,
   ⟨"nl_max", fun s => exactNewlines (max (max s.blankLines.keepInDeclarations.toNat
      s.blankLines.keepInCode.toNat) s.blankLines.keepBeforeHeader.toNat)⟩,
   ⟨"nl_max_blank_in_func", fun s => exactNewlines s.blankLines.keepInCode.toNat⟩,
   ⟨"nl_inside_empty_func", fun s => exactNewlines s.blankLines.keepInCode.toNat⟩,
   ⟨"nl_before_func_body_def", fun s => exactNewlines s.blankLines.beforeMethodBody.toNat⟩,
   ⟨"nl_before_func_class_def", fun s => exactNewlines s.blankLines.beforeMethodBody.toNat⟩,
   ⟨"nl_before_func_class_proto", fun s => exactNewlines s.blankLines.beforeMethodBody.toNat⟩,
   ⟨"nl_before_func_body_proto", fun s => exactNewlines s.blankLines.beforeMethodBody.toNat⟩,
   ⟨"nl_before_class", fun s => exactNewlines s.blankLines.aroundClass.toNat⟩,
   ⟨"nl_after_class", fun s => exactNewlines s.blankLines.aroundClass.toNat⟩]

/-- The exported file of a style gives this value to the option. -/
def Emits (s : Style) (name : String) (value : ℤ) : Prop :=
  s.exported.file.get? name = some (toString value)

/-- What a report says. -/
structure LossyConversion.Reports (w : LossyConversion) (name : String) (requested emitted : ℤ) :
    Prop where
  option : w.option = name
  requested : w.requested.toInt = requested
  emitted : w.emitted.toInt = emitted

/-- Every value that is not the exact one is reported with both. -/
def EveryLossReported (s : Style) : Prop :=
  ∀ o ∈ numericOptions, ∀ v, s.Emits o.name v → v ≠ o.exact s →
    ∃ w ∈ s.exported.warnings, w.Reports o.name (o.exact s) v

/-- Labels stand out to the left of the code around them. -/
def Indent.LabelOutdented (i : Indent) : Prop :=
  i.labelAbsolute = false ∧ i.label.toInt < 0

variable {s : Style}

/-! ## What is written -/

/-- No option is exported twice. -/
lemma nodup_exportedNames : exportedNames.Nodup := by
  decide +kernel

/-- An exported option is found under its name. -/
lemma get?_exported {r : OptionRecord} (hr : r ∈ exportOptions s) :
    s.exported.file.get? r.name = some r.value := by
  refine OptionFile.get?_of_mem ?_ hr
  rw [show s.exported.file.options.map (·.name) = exportedNames from map_name_exportOptions s]
  exact nodup_exportedNames

/-- An option has one value. -/
lemma Emits.unique {name : String} {v v' : ℤ} (h : s.Emits name v) (h' : s.Emits name v') :
    v = v' := by
  have htext := Option.some.inj (h.symm.trans h')
  rwa [Int.toString_eq_repr, Int.toString_eq_repr, Int.repr_inj] at htext

/-- An exported count has the value of the count, since every count is in the range. -/
lemma emits_count {name : String} {n : UInt32} (h : ⟨name, countText n⟩ ∈ exportOptions s) :
    s.Emits name (min n.toNat (2 ^ 32 - 1)) := by
  have hlt := n.toNat_lt
  rw [show min (n.toNat : ℤ) (2 ^ 32 - 1) = n.toNat by omega]
  exact get?_exported h

/-- An exported number of newlines has the exact value as far as the range goes. -/
lemma emits_newlines {name : String} {n : UInt32}
    (h : ⟨name, countText (newlines n)⟩ ∈ exportOptions s) :
    s.Emits name (min (exactNewlines n.toNat) (2 ^ 32 - 1)) := by
  have hcount := toNat_newlines n
  unfold countCap at hcount
  rw [show min (exactNewlines n.toNat) (2 ^ 32 - 1) = (newlines n).toNat by
    unfold exactNewlines
    omega]
  exact get?_exported h

/-- The exported label has the column of the label. -/
lemma emits_label (h : ¬ s.indent.LabelUnderflows) :
    s.Emits "indent_label" s.indent.labelColumn := by
  rw [← toInt_labelIndent h]
  exact get?_exported (r := ⟨"indent_label", _⟩) (by simp [exportOptions, indentOptions])

/-- Every other number is written as it is, or as the largest word. -/
lemma emits_of_mem : ∀ o ∈ numericOptions, o.name ≠ "indent_label" →
    s.Emits o.name (min (o.exact s) (2 ^ 32 - 1)) := by
  simp only [numericOptions, List.forall_mem_cons, ne_eq, not_true, false_imp_iff, true_and]
  refine ⟨fun _ => emits_count ?_, fun _ => emits_count ?_, fun _ => emits_count ?_, fun _ => ?_,
    fun _ => emits_newlines ?_, fun _ => emits_newlines ?_, fun _ => emits_newlines ?_,
    fun _ => emits_newlines ?_, fun _ => emits_newlines ?_, fun _ => emits_newlines ?_,
    fun _ => emits_newlines ?_, fun _ => emits_newlines ?_, by simp⟩
  case refine_4 =>
    rw [← toNat_mostKept]
    exact emits_newlines (by simp [exportOptions, blankLineOptions])
  all_goals simp [exportOptions, indentOptions, blankLineOptions]

/-- What is exact for the label option is where the label goes. -/
lemma exact_label : ∀ o ∈ numericOptions, o.name = "indent_label" →
    o.exact s = s.indent.exactLabel := by
  simp [numericOptions]

/-- Every numeric option has an exported value. -/
lemma exists_emits (h : ¬ s.indent.LabelUnderflows) {o : NumericOption} (ho : o ∈ numericOptions) :
    ∃ v, s.Emits o.name v := by
  by_cases hname : o.name = "indent_label"
  · exact ⟨_, hname ▸ emits_label h⟩
  · exact ⟨_, emits_of_mem o ho hname⟩

/-! ## What is reported -/

/-- A label with a column of its own goes to that column. -/
lemma Indent.exactLabel_of_absolute {i : Indent} (h : i.labelAbsolute = true) :
    i.exactLabel = i.labelColumn := by
  simp [exactLabel, labelColumn, h]

/-- A label that is placed by the code around it has an offset to say, and the column says zero. -/
lemma Indent.exactLabel_of_relative {i : Indent} (h : i.labelAbsolute = false) :
    i.exactLabel = i.label.toInt ∧ i.labelColumn = 0 := by
  simp [exactLabel, labelColumn, h]

/-- The only report there can be. -/
lemma mem_warnings {w : LossyConversion} : w ∈ s.exported.warnings ↔
    s.indent.labelAbsolute = false ∧ 0 < s.indent.label.toInt ∧
      w = ⟨"indent_label", s.indent.label, 0⟩ := by
  have hpos : 0 < s.indent.label ↔ 0 < s.indent.label.toInt := Int32.lt_iff_toInt_lt
  unfold exported labelIndent
  cases habs : s.indent.labelAbsolute with
  | true => simp
  | false =>
    by_cases hlt : 0 < s.indent.label
    · simp [hlt, hpos.mp hlt]
    · simp [hlt, hpos.not.mp hlt]

/-- A loss is reported, if the number fits into a word and the label does not stand out. -/
lemma exists_report (h : ¬ s.indent.LabelUnderflows) {o : NumericOption} (ho : o ∈ numericOptions)
    {v : ℤ} (hv : s.Emits o.name v) (hne : v ≠ o.exact s) (hfits : o.exact s < 2 ^ 32)
    (hlabel : ¬ (o.name = "indent_label" ∧ s.indent.LabelOutdented)) :
    ∃ w ∈ s.exported.warnings, w.Reports o.name (o.exact s) v := by
  by_cases hname : o.name = "indent_label"
  · obtain rfl := (hname ▸ hv).unique (emits_label h)
    rw [exact_label o ho hname] at hne ⊢
    have hrelative : s.indent.labelAbsolute = false := by
      by_contra habs
      exact hne (Indent.exactLabel_of_absolute (by simpa using habs)).symm
    obtain ⟨hexact, hcolumn⟩ := Indent.exactLabel_of_relative hrelative
    rw [hexact, hcolumn] at hne
    have hpos : 0 < s.indent.label.toInt := by
      have hnonneg : ¬ s.indent.label.toInt < 0 := fun hneg => hlabel ⟨hname, hrelative, hneg⟩
      omega
    exact ⟨_, mem_warnings.mpr ⟨hrelative, hpos, rfl⟩, hname.symm, hexact.symm, hcolumn.symm⟩
  · obtain rfl := hv.unique (emits_of_mem o ho hname)
    omega

/-- A report is about a loss. -/
lemma loss_of_report (h : ¬ s.indent.LabelUnderflows) {w : LossyConversion}
    (hw : w ∈ s.exported.warnings) :
    ∃ o ∈ numericOptions, ∃ v, s.Emits o.name v ∧ v ≠ o.exact s ∧
      w.Reports o.name (o.exact s) v := by
  obtain ⟨hrelative, hpos, rfl⟩ := mem_warnings.mp hw
  obtain ⟨hexact, hcolumn⟩ := Indent.exactLabel_of_relative hrelative
  refine ⟨⟨"indent_label", fun s => s.indent.exactLabel⟩, by simp [numericOptions],
    s.indent.labelColumn, emits_label h, ?_, rfl, hexact.symm, hcolumn.symm⟩
  change s.indent.labelColumn ≠ s.indent.exactLabel
  rw [hexact, hcolumn]
  exact hpos.ne

/-- Labels that stand out are put into the first column without a report. -/
lemma emits_of_outdented (h : ¬ s.indent.LabelUnderflows) (hlabel : s.indent.LabelOutdented) :
    s.Emits "indent_label" 0 ∧ s.exported.warnings = [] := by
  obtain ⟨hrelative, hneg⟩ := hlabel
  refine ⟨(Indent.exactLabel_of_relative hrelative).2 ▸ emits_label h, ?_⟩
  refine List.eq_nil_iff_forall_not_mem.mpr fun w hw => ?_
  obtain ⟨-, hpos, -⟩ := mem_warnings.mp hw
  omega

/-- **Losses are reported.** For every style whose label column can be counted from zero: every
numeric option has an integer for its value; if that is not the integer that would express the style
exactly, and the latter fits into a word of 32 bits, then there is a report with the name of the
option and both integers, unless the option is the label indent and labels stand out to the left.
Such labels are put into column zero, and nothing is reported.  Every report is about an option
whose value is not the exact one.  So a style without a report is expressed exactly, if its labels
do not stand out and its numbers fit. -/
theorem losses_reported (h : ¬ s.indent.LabelUnderflows) :
    (∀ o ∈ numericOptions, ∃ v, s.Emits o.name v) ∧
    (∀ o ∈ numericOptions, ∀ v, s.Emits o.name v → v ≠ o.exact s → o.exact s < 2 ^ 32 →
      ¬ (o.name = "indent_label" ∧ s.indent.LabelOutdented) →
        ∃ w ∈ s.exported.warnings, w.Reports o.name (o.exact s) v) ∧
    (s.indent.LabelOutdented → s.Emits "indent_label" 0 ∧ s.exported.warnings = []) ∧
    (∀ w ∈ s.exported.warnings, ∃ o ∈ numericOptions, ∃ v, s.Emits o.name v ∧ v ≠ o.exact s ∧
      w.Reports o.name (o.exact s) v) ∧
    (s.exported.warnings = [] → ¬ s.indent.LabelOutdented →
      (∀ o ∈ numericOptions, o.exact s < 2 ^ 32) →
        ∀ o ∈ numericOptions, s.Emits o.name (o.exact s)) := by
  refine ⟨?_, ?_, ?_, ?_, ?_⟩
  · intro o ho
    exact exists_emits h ho
  · intro o ho v hv hne hfits hlabel
    exact exists_report h ho hv hne hfits hlabel
  · intro hlabel
    exact emits_of_outdented h hlabel
  · intro w hw
    exact loss_of_report h hw
  · intro hnone hlabel hfits o ho
    obtain ⟨v, hv⟩ := exists_emits h ho
    by_cases hexact : v = o.exact s
    · rwa [← hexact]
    · obtain ⟨w, hw, -⟩ :=
        exists_report h ho hv hexact (hfits o ho) fun hlabel' => hlabel hlabel'.2
      rw [hnone] at hw
      cases hw

/-- A style with labels inside the code around them. -/
def indentedLabels : Style := { indent := { label := 5 } }

/-- Labels inside the code are reported with both values, and the stock style is exported
exactly. -/
theorem losses_reported_indentedLabels :
    ¬ indentedLabels.indent.LabelUnderflows ∧ indentedLabels.Emits "indent_label" 0 ∧
      (∃ w ∈ indentedLabels.exported.warnings, w.Reports "indent_label" 5 0) ∧
      ∀ o ∈ numericOptions, ({} : Style).Emits o.name (o.exact {}) := by
  have hlabel : ¬ indentedLabels.indent.LabelUnderflows := by
    simp [Indent.LabelUnderflows, indentedLabels]
  have hstock : ¬ ({} : Style).indent.LabelUnderflows := by simp [Indent.LabelUnderflows]
  have hemits : indentedLabels.Emits "indent_label" 0 := emits_label hlabel
  obtain ⟨-, hreport, -⟩ := losses_reported hlabel
  obtain ⟨-, -, -, -, hexact⟩ := losses_reported hstock
  exact ⟨hlabel, hemits,
    hreport ⟨"indent_label", fun s => s.indent.exactLabel⟩ (by simp [numericOptions]) 0 hemits
      (by decide) (by decide) (fun hout => absurd hout.2.2 (by decide)),
    hexact rfl (fun hout => absurd hout.2 (by decide)) (by decide)⟩

/-- A style with labels that stand out by two columns. -/
def outdentedLabels : Style := { indent := { label := -2 } }

/-- A style with as many blank lines around classes as can be asked for. -/
def distantClasses : Style := { blankLines := { aroundClass := 4294967295 } }

/-- Not every loss is reported: neither the one of a label that stands out, nor that of a count that
ends with the largest word. -/
theorem unreported_losses :
    ¬ outdentedLabels.indent.LabelUnderflows ∧ ¬ outdentedLabels.EveryLossReported ∧
      outdentedLabels.Emits "indent_label" 0 ∧ outdentedLabels.indent.exactLabel = -2 ∧
      ¬ distantClasses.indent.LabelUnderflows ∧ ¬ distantClasses.EveryLossReported ∧
      distantClasses.Emits "nl_before_class" 4294967295 ∧
      exactNewlines distantClasses.blankLines.aroundClass.toNat = 4294967296 ∧
      outdentedLabels.exported.warnings = [] ∧ distantClasses.exported.warnings = [] := by
  have hlabels : ¬ outdentedLabels.indent.LabelUnderflows := by
    simp [Indent.LabelUnderflows, outdentedLabels]
  have hclasses : ¬ distantClasses.indent.LabelUnderflows := by
    simp [Indent.LabelUnderflows, distantClasses]
  have hzero : outdentedLabels.Emits "indent_label" 0 := emits_label hlabels
  have hexact : exactNewlines distantClasses.blankLines.aroundClass.toNat = 4294967296 := by decide
  have hcount : distantClasses.Emits "nl_before_class" 4294967295 := by
    have h := emits_of_mem (s := distantClasses)
      ⟨"nl_before_class", fun s => exactNewlines s.blankLines.aroundClass.toNat⟩
      (by simp [numericOptions]) (by simp)
    simp only [hexact] at h
    exact h
  refine ⟨hlabels, ?_, hzero, rfl, hclasses, ?_, hcount, hexact, rfl, rfl⟩
  · intro hevery
    obtain ⟨w, hw, -⟩ := hevery ⟨"indent_label", fun s => s.indent.exactLabel⟩
      (by simp [numericOptions]) 0 hzero (by decide)
    cases hw
  · intro hevery
    obtain ⟨w, hw, -⟩ := hevery
      ⟨"nl_before_class", fun s => exactNewlines s.blankLines.aroundClass.toNat⟩
      (by simp [numericOptions]) 4294967295 hcount (by simp only [hexact]; decide)
    cases hw

end Style

end SourceFormat
