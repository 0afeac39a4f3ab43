import Mathlib
import SourceFormat.Proofs.OptionFile.ReadBack
import SourceFormat.Style.Export

/-!
# The options of an exported style

The names of the options are the same for every style, and whatever the preferences are, each option
is one that a reader can read (`readable_of_mem_exportOptions`).

The second part says what an exported value tells about the preferences it is computed from: two
values are equal exactly if the preferences agree on what the value is about.  There is one such
lemma for every kind of value (`flagText_inj`, `newlines_inj`, …) and then one for every
group of options.
-/

namespace SourceFormat.Style

/-! ## Names -/

/-- The names of the options of an exported file. -/
def exportedNames : List String :=
  ["newlines", "indent_class", "indent_columns", "indent_continue", "indent_with_tabs",
    "indent_single_newlines", "indent_label"] ++ spacingTable.map (·.1) ++
  ["nl_start_of_file", "nl_max", "nl_max_blank_in_func", "nl_inside_empty_func",
    "nl_before_func_body_def", "nl_before_func_class_def", "nl_before_func_class_proto",
    "nl_before_func_body_proto", "nl_before_class", "nl_after_class"]

/-- Every style exports options of the same names. -/
lemma map_name_exportOptions (s : Style) : (exportOptions s).map (·.name) = exportedNames := rfl

/-- Whether a name consists of small letters and underscores, and ends in a letter. -/
def isPlainName (cs : List Char) : Bool :=
  cs.all (fun c => c.isLower || c = '_') && cs.getLast?.any Char.isLower

/-- The exported names are plain. -/
lemma isPlainName_of_mem_exportedNames :
    ∀ name ∈ exportedNames, isPlainName name.toList = true := by
  decide +kernel

/-- Only small letters and underscores stand in a plain name. -/
lemma notMem_of_isPlainName {cs : List Char} (h : isPlainName cs = true) {c : Char}
    (hc : c.isLower = false) (hc' : c ≠ '_') : c ∉ cs := by
  intro hmem
  rw [isPlainName, Bool.and_eq_true, List.all_eq_true] at h
  simpa [hc, hc'] using h.1 c hmem

/-- A plain name is not empty and does not end in a blank. -/
lemma getLast?_of_isPlainName {cs : List Char} (h : isPlainName cs = true) :
    cs ≠ [] ∧ cs.getLast? ≠ some ' ' := by
  rw [isPlainName, Bool.and_eq_true] at h
  refine ⟨?_, ?_⟩
  · rintro rfl
    simp at h
  · intro hlast
    have := h.2
    simp [hlast] at this

/-! ## Values -/

/-- No number has a line end in it. -/
lemma newline_notMem_repr (n : ℕ) : '\n' ∉ n.repr.toList := by
  intro h
  rw [Nat.toList_repr] at h
  have := Nat.isDigit_of_mem_toDigits (by decide) (by decide) h
  simp at this

/-- No count has a line end in it. -/
lemma newline_notMem_countText (n : UInt32) : '\n' ∉ (countText n).toList :=
  newline_notMem_repr n.toNat

/-- No integer has a line end in it. -/
lemma newline_notMem_int (i : ℤ) : '\n' ∉ (toString i).toList := by
  rw [Int.toString_eq_repr, Int.repr_eq_if]
  split
  · exact newline_notMem_repr _
  · simpa using newline_notMem_repr _

/-- No truth value has a line end in it. -/
lemma newline_notMem_flagText (b : Bool) : '\n' ∉ (flagText b).toList := by
  cases b <;> decide

/-- No spacing has a line end in it. -/
lemma newline_notMem_spaceText (t : SpaceToken) : '\n' ∉ t.text.toList := by
  cases t <;> decide

/-- No choice of tabs has a line end in it. -/
lemma newline_notMem_tabText (m : TabMode) : '\n' ∉ m.text.toList := by
  cases m <;> decide

/-- No exported value has a line end in it. -/
lemma newline_notMem_value {s : Style} {r : OptionRecord} (hr : r ∈ exportOptions s) :
    '\n' ∉ r.value.toList := by
  simp only [exportOptions, List.mem_cons, List.mem_append] at hr
  rcases hr with rfl | (hr | hr) | hr
  · decide
  · simp only [indentOptions, List.mem_cons, List.not_mem_nil, or_false] at hr
    rcases hr with rfl | rfl | rfl | rfl | rfl | rfl
    · exact newline_notMem_flagText _
    · exact newline_notMem_countText _
    · exact newline_notMem_countText _
    · exact newline_notMem_tabText _
    · exact newline_notMem_flagText _
    · exact newline_notMem_int _
  · obtain ⟨entry, -, rfl⟩ := List.mem_map.mp hr
    exact newline_notMem_spaceText _
  · simp only [blankLineOptions, List.mem_cons, List.not_mem_nil, or_false] at hr
    rcases hr with rfl | rfl | rfl | rfl | rfl | rfl | rfl | rfl | rfl | rfl <;>
      exact newline_notMem_countText _

/-- Every option of an exported file can be read. -/
lemma readable_of_mem_exportOptions {s : Style} {r : OptionRecord} (hr : r ∈ exportOptions s) :
    r.Readable := by
  have hname : r.name ∈ exportedNames := by
    rw [← map_name_exportOptions s]
    exact List.mem_map_of_mem hr
  have hplain := isPlainName_of_mem_exportedNames _ hname
  obtain ⟨hne, hlast⟩ := getLast?_of_isPlainName hplain
  exact {
    name_ne_nil := hne
    assign_notMem_name := notMem_of_isPlainName hplain (by decide) (by decide)
    newline_notMem_name := notMem_of_isPlainName hplain (by decide) (by decide)
    head_name := fun h => notMem_of_isPlainName hplain (by decide) (by decide)
      (List.mem_of_mem_head? h)
    last_name := hlast
    newline_notMem_value := newline_notMem_value hr }

/-! ## What a value tells -/

/-- A truth value can be told from its text. -/
lemma flagText_inj {a b : Bool} : flagText a = flagText b ↔ a = b := by
  cases a <;> cases b <;> decide

/-- A spacing can be told from its text. -/
lemma spaceText_inj {a b : Bool} :
    (SpaceToken.ofFlag a).text = (SpaceToken.ofFlag b).text ↔ a = b := by
  cases a <;> cases b <;> decide

/-- From the text for tabs it can be told whether there are any, and only then which. -/
lemma tabText_inj {a a' b b' : Bool} :
    (TabMode.ofFlags a b).text = (TabMode.ofFlags a' b').text ↔ a = a' ∧ (a = true → b = b') := by
  cases a <;> cases a' <;> cases b <;> cases b' <;> decide

/-- A count can be told from its text. -/
lemma countText_inj {m n : UInt32} : countText m = countText n ↔ m = n := by
  rw [countText, countText, Nat.toString_eq_repr, Nat.toString_eq_repr, Nat.repr_inj,
    UInt32.toNat_inj]

/-- The largest count of blank lines that is told apart from the next one. -/
def countCap : ℕ := 2 ^ 32 - 2

/-- Newlines are one more than blank lines, as far as the range goes. -/
lemma toNat_newlines (n : UInt32) : (newlines n).toNat = min n.toNat countCap + 1 := by
  have hlt := n.toNat_lt
  unfold newlines countCap
  split
  · rename_i h
    rw [h]
    decide
  · rename_i h
    have hne : n.toNat ≠ 2 ^ 32 - 1 := fun h' => h (UInt32.toNat_inj.mp (by simpa using h'))
    rw [UInt32.toNat_add, UInt32.toNat_one]
    omega

/-- Blank lines can be told from newlines as far as the range goes. -/
lemma newlines_inj {m n : UInt32} :
    newlines m = newlines n ↔ min m.toNat countCap = min n.toNat countCap := by
  rw [← UInt32.toNat_inj, toNat_newlines, toNat_newlines, Nat.add_right_cancel_iff]

/-- The maximum of two words is that of their values. -/
lemma toNat_max (m n : UInt32) : (max m n).toNat = max m.toNat n.toNat := by
  change (if m ≤ n then n else m).toNat = _
  split <;> rename_i h <;> rw [UInt32.le_iff_toNat_le] at h <;> omega

/-- What is kept at most is the largest of three counts. -/
lemma toNat_mostKept (b : BlankLines) :
    b.mostKept.toNat =
      max (max b.keepInDeclarations.toNat b.keepInCode.toNat) b.keepBeforeHeader.toNat := by
  rw [BlankLines.mostKept, toNat_max, toNat_max]

/-- The value of the label option: a column counted from zero, and zero for a label that is placed
by the code around it. -/
def Indent.labelColumn (i : Indent) : ℤ :=
  if i.labelAbsolute = true then i.label.toInt - 1 else 0

/-- A label whose column cannot be counted from zero. -/
def Indent.LabelUnderflows (i : Indent) : Prop :=
  i.labelAbsolute = true ∧ i.label = Int32.minValue

/-- The exported label is the column, as far as it can be counted. -/
lemma toInt_labelIndent {i : Indent} (h : ¬ i.LabelUnderflows) :
    (labelIndent i).1.toInt = i.labelColumn := by
  unfold labelIndent Indent.labelColumn
  by_cases habs : i.labelAbsolute = true
  · have hne : i.label.toInt ≠ -2 ^ 31 := by
      rw [← Int32.toInt_minValue]
      exact fun hmin => h ⟨habs, Int32.toInt_inj.mp hmin⟩
    have hge := i.label.le_toInt
    have hlt := i.label.toInt_lt
    rw [if_pos habs, if_pos habs, Int32.toInt_sub, Int32.toInt_one]
    exact Int.bmod_eq_of_le (by omega) (by omega)
  · rw [if_neg habs, if_neg habs]
    rfl

/-- The column of a label can be told from its text. -/
lemma labelText_inj {i j : Indent} (hi : ¬ i.LabelUnderflows) (hj : ¬ j.LabelUnderflows) :
    toString (labelIndent i).1.toInt = toString (labelIndent j).1.toInt ↔
      i.labelColumn = j.labelColumn := by
  rw [Int.toString_eq_repr, Int.toString_eq_repr, Int.repr_inj, toInt_labelIndent hi,
    toInt_labelIndent hj]

/-! ## What a group of options tells -/

/-- What can be told of a style from the options for indentation. -/
lemma indentOptions_inj {a b : Style} (ha : ¬ a.indent.LabelUnderflows)
    (hb : ¬ b.indent.LabelUnderflows) :
    indentOptions a = indentOptions b ↔
      a.flushTopLevelMembers = b.flushTopLevelMembers ∧ a.indent.size = b.indent.size ∧
        a.indent.continuation = b.indent.continuation ∧
        (a.indent.useTabs = b.indent.useTabs ∧
          (a.indent.useTabs = true → a.indent.smartTabs = b.indent.smartTabs)) ∧
        a.indent.keepOnEmptyLines = b.indent.keepOnEmptyLines ∧
        a.indent.labelColumn = b.indent.labelColumn := by
  simp only [indentOptions, List.cons.injEq, OptionRecord.mk.injEq, true_and, and_true,
    flagText_inj, countText_inj, tabText_inj, labelText_inj ha hb, Bool.not_inj_iff]

/-- Every spacing preference drives an option. -/
lemma spacingOptions_inj {a b : Spacing} : spacingOptions a = spacingOptions b ↔ a = b := by
  constructor
  · intro h
    have hdrives : ∀ entry ∈ spacingTable, entry.2 a = entry.2 b := by
      intro entry hentry
      have heq := List.map_inj_left.mp h entry hentry
      exact spaceText_inj.mp (OptionRecord.mk.inj heq).2
    simp only [spacingTable, List.forall_mem_cons] at hdrives
    cases a
    cases b
    simp_all
  · rintro rfl
    rfl

/-- What can be told of a style from the options for blank lines. -/
lemma blankLineOptions_inj {a b : BlankLines} :
    blankLineOptions a = blankLineOptions b ↔
      a.beforePackage = b.beforePackage ∧
        min a.mostKept.toNat countCap = min b.mostKept.toNat countCap ∧
        min a.keepInCode.toNat countCap = min b.keepInCode.toNat countCap ∧
        min a.beforeMethodBody.toNat countCap = min b.beforeMethodBody.toNat countCap ∧
        min a.aroundClass.toNat countCap = min b.aroundClass.toNat countCap := by
  simp only [blankLineOptions, List.cons.injEq, OptionRecord.mk.injEq, true_and, and_true,
    countText_inj, newlines_inj]
  tauto

/-- What is exported can be told group by group. -/
lemma exportOptions_inj {a b : Style} :
    exportOptions a = exportOptions b ↔
      indentOptions a = indentOptions b ∧ spacingOptions a.spacing = spacingOptions b.spacing ∧
        blankLineOptions a.blankLines = blankLineOptions b.blankLines := by
  unfold exportOptions
  rw [List.cons_inj_right, List.append_assoc, List.append_assoc]
  constructor
  · intro h
    obtain ⟨hindent, h⟩ := List.append_inj h rfl
    obtain ⟨hspacing, hblank⟩ := List.append_inj h (by simp [spacingOptions])
    exact ⟨hindent, hspacing, hblank⟩
  · rintro ⟨hindent, hspacing, hblank⟩
    rw [hindent, hspacing, hblank]

end SourceFormat.Style
