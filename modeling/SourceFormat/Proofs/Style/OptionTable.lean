import Mathlib
import SourceFormat.Proofs.Style.ExportInformation
import SourceFormat.Proofs.Style.ExportLosses
import SourceFormat.Proofs.Text.Decimal

/-!
# The table of options

What an exported file says about a style is laid down in a table: each row names the options that
one preference drives and the rule by which they follow it, with integers in exact arithmetic.  The
rows are those of the documentation, and a file has their options in their order.

* `meets_entries`: every option has the value that its row asks for.
* `lastValue?_eq_firstValue?`: no option is there twice, so it does not matter from which end a
  reader looks for one.
* `exported_meets_table`: the table as a whole, with what follows from it for the limits on blank
  lines.
-/

namespace SourceFormat

namespace OptionFile

/-- The value of the first record of a name. -/
def firstValue? (records : List OptionRecord) (name : String) : Option String :=
  (records.find? (·.name = name)).map (·.value)

/-- The value of the last record of a name. -/
def lastValue? (records : List OptionRecord) (name : String) : Option String :=
  firstValue? records.reverse name

/-- Among records of different names each is the first of its name. -/
lemma firstValue?_of_mem {records : List OptionRecord} (hnodup : (records.map (·.name)).Nodup)
    {r : OptionRecord} (hr : r ∈ records) : firstValue? records r.name = some r.value :=
  get?_of_mem (f := { options := records }) hnodup hr

/-- There is no first record of a name if there is none at all. -/
lemma firstValue?_eq_none_iff {records : List OptionRecord} {name : String} :
    firstValue? records name = none ↔ ∀ r ∈ records, r.name ≠ name := by
  simp [firstValue?]

/-- Where no two records have one name, the first of a name is the last. -/
lemma lastValue?_eq_firstValue? {records : List OptionRecord}
    (hnodup : (records.map (·.name)).Nodup) (name : String) :
    lastValue? records name = firstValue? records name := by
  have hreverse : (records.reverse.map (·.name)).Nodup := by
    rw [List.map_reverse, List.nodup_reverse]
    exact hnodup
  unfold lastValue?
  by_cases hname : ∃ r ∈ records, r.name = name
  · obtain ⟨r, hr, rfl⟩ := hname
    rw [firstValue?_of_mem hreverse (List.mem_reverse.mpr hr), firstValue?_of_mem hnodup hr]
  · push Not at hname
    have hnone : ∀ r ∈ records.reverse, r.name ≠ name := by
      intro r hr
      exact hname r (List.mem_reverse.mp hr)
    rw [firstValue?_eq_none_iff.mpr hnone, firstValue?_eq_none_iff.mpr hname]

end OptionFile

namespace Style

/-! ## Rules -/

/-- How the value of an option follows from a style. -/
inductive OptionRule where
  /-- Always the same word. -/
  | word (text : String)
  /-- `true` or `false`. -/
  | flag (preference : Style → Bool)
  /-- `force` or `remove`. -/
  | space (preference : Spacing → Bool)
  /-- An integer. -/
  | number (exact : Style → ℤ)
  /-- Newlines, so many more of them than the largest of some counts of blank lines. -/
  | newlines (more : ℕ) (counts : List (BlankLines → UInt32))

/-- The newlines for some counts of blank lines, at most as many as the largest word. -/
def newlineCount (more : ℕ) (counts : List UInt32) : ℤ :=
  min ((counts.map UInt32.toNat).foldr max 0 + more) (2 ^ 32 - 1)

/-- A text is an integer in decimal notation, and is read back as that integer. -/
structure SpellsInteger (text : String) (value : ℤ) : Prop where
  written : text = toString value
  read : Text.integer? text.toList = some value

/-- A text is the value that a rule asks for. -/
def OptionRule.Expresses (s : Style) (text : String) : OptionRule → Prop
  | word expected => text = expected
  | flag preference => text = if preference s then "true" else "false"
  | space preference => text = if preference s.spacing then "force" else "remove"
  | number exact => SpellsInteger text (exact s)
  | newlines more counts => SpellsInteger text (newlineCount more (counts.map (· s.blankLines)))

/-! ## The table -/

/-- The options that follow one rule. -/
structure OptionRow where
  names : List String
  rule : OptionRule

/-- How lines end and how they are indented.  Tabs are numbered: none, all the way, or up to the
indentation only. -/
def indentRows : List OptionRow :=
  [⟨["newlines"], .word "lf"⟩,
   ⟨["indent_class"], .flag fun s => !s.flushTopLevelMembers⟩,
   ⟨["indent_columns"], .number fun s => s.indent.size.toNat⟩,
   ⟨["indent_continue"], .number fun s => s.indent.continuation.toNat⟩,
   ⟨["indent_with_tabs"],
     .number fun s => if s.indent.useTabs then (if s.indent.smartTabs then 2 else 1) else 0⟩,
   ⟨["indent_single_newlines"], .flag fun s => s.indent.keepOnEmptyLines⟩,
   ⟨["indent_label"], .number fun s => s.indent.labelColumn⟩]

/-- Spacing.  Nothing is asked for empty brackets, and they get no blank. -/
def spacingRows : List OptionRow :=
  [⟨["sp_arith_additive"], .space (·.aroundAdditive)⟩,
   ⟨["sp_arith"], .space (·.aroundMultiplicative)⟩,
   ⟨["sp_assign"], .space (·.aroundAssignment)⟩,
   ⟨["sp_bool"], .space (·.aroundLogical)⟩,
   ⟨["sp_compare"], .space (·.aroundRelational)⟩,
   ⟨["sp_sign", "sp_inv", "sp_addr", "sp_incdec", "sp_not", "sp_deref"], .space (·.aroundUnary)⟩,
   ⟨["sp_before_semi_for", "sp_before_semi_for_empty"], .space (·.beforeSemicolon)⟩,
   ⟨["sp_after_semi_for", "sp_after_semi_for_empty"], .space (·.afterSemicolon)⟩,
   ⟨["sp_inside_sparen"], .space (·.withinIfParens)⟩,
   ⟨["sp_before_sparen"], .space (·.beforeIfParens)⟩,
   ⟨["sp_while_paren_open"], .space (·.beforeWhileParens)⟩,
   ⟨["sp_inside_paren_cast"], .space (·.withinCastParens)⟩,
   ⟨["sp_after_cast"], .space (·.afterCast)⟩,
   ⟨["sp_func_proto_paren", "sp_func_proto_paren_empty", "sp_func_def_paren",
     "sp_func_def_paren_empty"], .space (·.beforeMethodParens)⟩,
   ⟨["sp_fparen_brace"], .space (·.beforeMethodBrace)⟩,
   ⟨["sp_func_call_paren"], .space (·.beforeCallParens)⟩,
   ⟨["sp_inside_fparen", "sp_inside_fparens"], .space (·.withinMethodParens)⟩,
   ⟨["sp_inside_paren", "sp_paren_paren"], .space (·.withinParens)⟩,
   ⟨["sp_inside_square"], .space (·.withinBrackets)⟩,
   ⟨["sp_inside_square_empty"], .space fun _ => false⟩,
   ⟨["sp_sparen_brace"], .space (·.beforeIfBrace)⟩,
   ⟨["sp_do_brace_open"], .space (·.beforeDoBrace)⟩,
   ⟨["sp_try_brace"], .space (·.beforeTryBrace)⟩,
   ⟨["sp_brace_catch"], .space (·.beforeCatch)⟩,
   ⟨["sp_brace_finally"], .space (·.beforeFinally)⟩,
   ⟨["sp_finally_brace"], .space (·.beforeFinallyBrace)⟩,
   ⟨["sp_brace_else"], .space (·.beforeElse)⟩,
   ⟨["sp_else_brace"], .space (·.beforeElseBrace)⟩,
   ⟨["sp_cond_colon_before"], .space (·.beforeColon)⟩,
   ⟨["sp_cond_colon_after"], .space (·.afterColon)⟩,
   ⟨["sp_cond_question_before"], .space (·.beforeQuestion)⟩,
   ⟨["sp_cond_question_after"], .space (·.afterQuestion)⟩]

/-- Newlines. -/
def newlineRows : List OptionRow :=
  [⟨["nl_start_of_file"], .newlines 0 [(·.beforePackage)]⟩,
   ⟨["nl_max"], .newlines 1 [(·.keepInDeclarations), (·.keepInCode), (·.keepBeforeHeader)]⟩,
   ⟨["nl_max_blank_in_func", "nl_inside_empty_func"], .newlines 1 [(·.keepInCode)]⟩,
   ⟨["nl_before_func_body_def", "nl_before_func_class_def", "nl_before_func_class_proto",
     "nl_before_func_body_proto"], .newlines 1 [(·.beforeMethodBody)]⟩,
   ⟨["nl_before_class", "nl_after_class"], .newlines 1 [(·.aroundClass)]⟩]

/-- The table. -/
def optionTable : List OptionRow :=
  indentRows ++ (spacingRows ++ newlineRows)

/-- The options of some rows one by one, each with its rule. -/
def entriesOf (rows : List OptionRow) : List (String × OptionRule) :=
  rows.flatMap fun row => row.names.map fun name => (name, row.rule)

/-- An option is the one that an entry of the table asks for. -/
structure Meets (s : Style) (entry : String × OptionRule) (r : OptionRecord) : Prop where
  name : r.name = entry.1
  expresses : entry.2.Expresses s r.value

variable {s : Style}

/-! ## Values -/

/-- The notation of an integer spells it. -/
lemma spellsInteger_toString (value : ℤ) : SpellsInteger (toString value) value :=
  ⟨rfl, Text.integer?_toString value⟩

/-- The text of a count spells it. -/
lemma spellsInteger_count (n : UInt32) : SpellsInteger (countText n) n.toNat :=
  spellsInteger_toString (n.toNat : ℤ)

/-- The text for newlines spells what the rule asks for. -/
lemma spellsInteger_newlines {n : UInt32} {counts : List UInt32}
    (h : n.toNat = (counts.map UInt32.toNat).foldr max 0) :
    SpellsInteger (countText (newlines n)) (newlineCount 1 counts) := by
  have hcount := toNat_newlines n
  unfold countCap at hcount
  rw [show newlineCount 1 counts = (newlines n).toNat by
    unfold newlineCount
    omega]
  exact spellsInteger_count (newlines n)

/-- The text for tabs spells the number of the choice. -/
lemma spellsInteger_tabs (useTabs smartTabs : Bool) :
    SpellsInteger (TabMode.ofFlags useTabs smartTabs).text
      (if useTabs then (if smartTabs then 2 else 1) else 0) := by
  cases useTabs <;> cases smartTabs
  · exact spellsInteger_toString 0
  · exact spellsInteger_toString 0
  · exact spellsInteger_toString 1
  · exact spellsInteger_toString 2

/-! ## Groups -/

/-- The exported options for indentation meet their part of the table. -/
lemma meets_indent (h : ¬ s.indent.LabelUnderflows) :
    List.Forall₂ (Meets s) (entriesOf indentRows) (⟨"newlines", "lf"⟩ :: indentOptions s) := by
  have hlabel : SpellsInteger (toString (labelIndent s.indent).1.toInt) s.indent.labelColumn := by
    rw [toInt_labelIndent h]
    exact spellsInteger_toString _
  exact .cons ⟨rfl, rfl⟩ <| .cons ⟨rfl, rfl⟩ <| .cons ⟨rfl, spellsInteger_count _⟩ <|
    .cons ⟨rfl, spellsInteger_count _⟩ <| .cons ⟨rfl, spellsInteger_tabs _ _⟩ <|
    .cons ⟨rfl, rfl⟩ <| .cons ⟨rfl, hlabel⟩ .nil

/-- The exported options for spacing meet their part of the table. -/
lemma meets_spacing :
    List.Forall₂ (Meets s) (entriesOf spacingRows) (spacingOptions s.spacing) := by
  have hrows : entriesOf spacingRows = spacingTable.map fun e => (e.1, .space e.2) := rfl
  rw [hrows, spacingOptions, List.forall₂_map_left_iff, List.forall₂_map_right_iff,
    List.forall₂_same]
  rintro ⟨name, active⟩ -
  refine ⟨rfl, ?_⟩
  show (SpaceToken.ofFlag (active s.spacing)).text = if active s.spacing then "force" else "remove"
  cases active s.spacing <;> rfl

/-- The exported options for newlines meet their part of the table. -/
lemma meets_newlines :
    List.Forall₂ (Meets s) (entriesOf newlineRows) (blankLineOptions s.blankLines) := by
  have hplain : SpellsInteger (countText s.blankLines.beforePackage)
      (newlineCount 0 [s.blankLines.beforePackage]) := by
    have hlt := s.blankLines.beforePackage.toNat_lt
    rw [show newlineCount 0 [s.blankLines.beforePackage] = s.blankLines.beforePackage.toNat by
      simp only [newlineCount, List.map_cons, List.map_nil, List.foldr_cons, List.foldr_nil]
      omega]
    exact spellsInteger_count _
  have hone : ∀ n : UInt32, SpellsInteger (countText (newlines n)) (newlineCount 1 [n]) := by
    intro n
    apply spellsInteger_newlines
    simp
  have hmost : SpellsInteger (countText (newlines s.blankLines.mostKept))
      (newlineCount 1 [s.blankLines.keepInDeclarations, s.blankLines.keepInCode,
        s.blankLines.keepBeforeHeader]) := by
    apply spellsInteger_newlines
    rw [toNat_mostKept]
    simp [max_assoc]
  exact .cons ⟨rfl, hplain⟩ <| .cons ⟨rfl, hmost⟩ <| .cons ⟨rfl, hone _⟩ <|
    .cons ⟨rfl, hone _⟩ <| .cons ⟨rfl, hone _⟩ <| .cons ⟨rfl, hone _⟩ <| .cons ⟨rfl, hone _⟩ <|
    .cons ⟨rfl, hone _⟩ <| .cons ⟨rfl, hone _⟩ <| .cons ⟨rfl, hone _⟩ .nil

/-- Every option of an exported file is the one that the table asks for at its place. -/
lemma meets_entries (h : ¬ s.indent.LabelUnderflows) :
    List.Forall₂ (Meets s) (entriesOf optionTable) s.exported.file.options := by
  have happend : entriesOf optionTable =
      entriesOf indentRows ++ (entriesOf spacingRows ++ entriesOf newlineRows) := by
    simp only [entriesOf, optionTable, List.flatMap_append]
  have hoptions : s.exported.file.options = (⟨"newlines", "lf"⟩ :: indentOptions s) ++
      (spacingOptions s.spacing ++ blankLineOptions s.blankLines) := by
    rw [← List.append_assoc]
    rfl
  rw [happend, hoptions]
  exact List.rel_append (meets_indent h) (List.rel_append meets_spacing meets_newlines)

/-- The table lists the exported names in their order. -/
lemma map_name_entries : (entriesOf optionTable).map (·.1) = exportedNames := rfl

/-- For every entry of the table there is a record that meets it. -/
lemma exists_meets {entries : List (String × OptionRule)} {records : List OptionRecord}
    (h : List.Forall₂ (Meets s) entries records) {entry : String × OptionRule}
    (hentry : entry ∈ entries) : ∃ r ∈ records, Meets s entry r := by
  induction h with
  | nil => cases hentry
  | cons hfirst _ ih =>
    rcases List.mem_cons.mp hentry with rfl | hentry
    · exact ⟨_, List.mem_cons_self, hfirst⟩
    · obtain ⟨r, hr, hmeets⟩ := ih hentry
      exact ⟨r, List.mem_cons_of_mem _ hr, hmeets⟩

/-! ## Newlines -/

/-- With more blank lines there are not fewer newlines. -/
lemma newlineCount_mono (more : ℕ) {counts : List (BlankLines → UInt32)} {b b' : BlankLines}
    (h : ∀ count ∈ counts, count b ≤ count b') :
    newlineCount more (counts.map (· b)) ≤ newlineCount more (counts.map (· b')) := by
  have hmax : ((counts.map (· b)).map UInt32.toNat).foldr max 0 ≤
      ((counts.map (· b')).map UInt32.toNat).foldr max 0 := by
    induction counts with
    | nil => simp
    | cons count counts ih =>
      obtain ⟨hcount, hcounts⟩ := List.forall_mem_cons.mp h
      exact max_le_max (UInt32.le_iff_toNat_le.mp hcount) (ih hcounts)
  unfold newlineCount
  omega

/-- An option of a row about newlines has the number of newlines for its counts. -/
lemma emits_newlineCount (h : ¬ s.indent.LabelUnderflows) (row : OptionRow)
    (hrow : row ∈ optionTable) {more : ℕ} {counts : List (BlankLines → UInt32)}
    (hrule : row.rule = .newlines more counts) {name : String} (hname : name ∈ row.names) :
    s.Emits name (newlineCount more (counts.map (· s.blankLines))) := by
  have hentry : (name, row.rule) ∈ entriesOf optionTable :=
    List.mem_flatMap.mpr ⟨row, hrow, List.mem_map.mpr ⟨name, hname, rfl⟩⟩
  obtain ⟨r, hr, hmeets⟩ := exists_meets (meets_entries h) hentry
  have hvalue : SpellsInteger r.value (newlineCount more (counts.map (· s.blankLines))) := by
    have hexpresses := hmeets.expresses
    rw [hrule] at hexpresses
    exact hexpresses
  unfold Emits
  rw [← hvalue.written, ← show r.name = name from hmeets.name]
  exact get?_exported hr

/-- There is at least one newline where a blank line could be. -/
lemma one_le_newlineCount (counts : List UInt32) : 1 ≤ newlineCount 1 counts := by
  unfold newlineCount
  omega

/-- Nowhere in a file are there more blank lines kept in code than are kept at all. -/
lemma newlineCount_keepInCode_le (b : BlankLines) :
    newlineCount 1 [b.keepInCode] ≤
      newlineCount 1 [b.keepInDeclarations, b.keepInCode, b.keepBeforeHeader] := by
  simp only [newlineCount, List.map_cons, List.map_nil, List.foldr_cons, List.foldr_nil]
  omega

/-! ## The whole table -/

/-- **An exported file follows the table of options.** For a style whose label column can be counted
from zero, a file has exactly the 61 options of the table in their order, whatever the preferences
are, and no two of them have one name, so a reader finds the same value whether it takes the first
or the last record of a name.  Each option has the value that its row asks for, an integer in
decimal notation.  Nowhere are fewer newlines allowed than in code, in code as many as in an empty
function and at least one, and who asks for no fewer blank lines gets no fewer newlines. -/
theorem exported_meets_table (h : ¬ s.indent.LabelUnderflows) :
    List.Forall₂ (Meets s) (entriesOf optionTable) s.exported.file.options ∧
    s.exported.file.options.map (·.name) = (entriesOf optionTable).map (·.1) ∧
    (entriesOf optionTable).length = 61 ∧ ((entriesOf optionTable).map (·.1)).Nodup ∧
    (∀ name,
      OptionFile.firstValue? (OptionFile.read s.exported.file.render).2 name =
        s.exported.file.get? name ∧
      OptionFile.lastValue? (OptionFile.read s.exported.file.render).2 name =
        s.exported.file.get? name) ∧
    (∃ most inCode : ℤ, s.Emits "nl_max" most ∧ s.Emits "nl_max_blank_in_func" inCode ∧
      s.Emits "nl_inside_empty_func" inCode ∧ inCode ≤ most ∧ 1 ≤ inCode) ∧
    (∀ t : Style, ¬ t.indent.LabelUnderflows → ∀ row ∈ optionTable, ∀ more counts,
      row.rule = .newlines more counts →
      (∀ count ∈ counts, count s.blankLines ≤ count t.blankLines) →
        ∀ name ∈ row.names, ∃ fewer moreOrEqual : ℤ, s.Emits name fewer ∧
          t.Emits name moreOrEqual ∧ fewer ≤ moreOrEqual) := by
  have hnames : s.exported.file.options.map (·.name) = (entriesOf optionTable).map (·.1) :=
    map_name_exportOptions s
  have hnodup : ((entriesOf optionTable).map (·.1)).Nodup := by
    rw [map_name_entries]
    exact nodup_exportedNames
  refine ⟨meets_entries h, hnames, rfl, hnodup, ?_, ?_, ?_⟩
  · intro name
    have hrecords : ((exportOptions s).map (·.name)).Nodup := by
      rw [show (exportOptions s).map (·.name) = (entriesOf optionTable).map (·.1) from hnames]
      exact hnodup
    rw [read_render_exported]
    exact ⟨rfl, OptionFile.lastValue?_eq_firstValue? hrecords name⟩
  · have hcode : ∀ name ∈ ["nl_max_blank_in_func", "nl_inside_empty_func"],
        s.Emits name (newlineCount 1 [s.blankLines.keepInCode]) := fun name hname =>
      emits_newlineCount h ⟨_, .newlines 1 [(·.keepInCode)]⟩
        (by simp [optionTable, newlineRows]) rfl hname
    have hmost : s.Emits "nl_max" (newlineCount 1 [s.blankLines.keepInDeclarations,
        s.blankLines.keepInCode, s.blankLines.keepBeforeHeader]) :=
      emits_newlineCount h
        ⟨["nl_max"], .newlines 1 [(·.keepInDeclarations), (·.keepInCode), (·.keepBeforeHeader)]⟩
        (by simp [optionTable, newlineRows]) rfl List.mem_cons_self
    exact ⟨_, _, hmost, hcode _ (by simp), hcode _ (by simp), newlineCount_keepInCode_le _,
      one_le_newlineCount _⟩
  · intro t ht row hrow more counts hrule hcounts name hname
    exact ⟨_, _, emits_newlineCount h row hrow hrule hname,
      emits_newlineCount ht row hrow hrule hname, newlineCount_mono more hcounts⟩

/-- A style with labels in a column before the first one, and with as many blank lines kept in
declarations as can be asked for. -/
def farLabels : Style :=
  { indent := { labelAbsolute := true, label := -5 },
    blankLines := { keepInDeclarations := 4294967295 } }

/-- A style with labels before the first column and counts beyond the largest one meets the table
all the same. -/
theorem exported_meets_table_farLabels :
    ¬ ({} : Style).indent.LabelUnderflows ∧ ¬ farLabels.indent.LabelUnderflows ∧
      List.Forall₂ (Meets farLabels) (entriesOf optionTable) farLabels.exported.file.options ∧
      farLabels.indent.labelColumn = -6 ∧
      newlineCount 1 [farLabels.blankLines.keepInDeclarations, 2, 2] = 4294967295 ∧
      ∃ fewer moreOrEqual : ℤ, ({} : Style).Emits "nl_max" fewer ∧
        farLabels.Emits "nl_max" moreOrEqual ∧ fewer ≤ moreOrEqual := by
  have hstock : ¬ ({} : Style).indent.LabelUnderflows := by simp [Indent.LabelUnderflows]
  have hfar : ¬ farLabels.indent.LabelUnderflows := by
    simp only [Indent.LabelUnderflows, farLabels]
    decide
  obtain ⟨hmeets, -⟩ := exported_meets_table hfar
  obtain ⟨-, -, -, -, -, -, hmono⟩ := exported_meets_table hstock
  refine ⟨hstock, hfar, hmeets, rfl, by decide, ?_⟩
  exact hmono farLabels hfar
    ⟨["nl_max"], .newlines 1 [(·.keepInDeclarations), (·.keepInCode), (·.keepBeforeHeader)]⟩
    (by simp [optionTable, newlineRows]) 1 _ rfl
    (by simp only [List.forall_mem_cons]; decide) "nl_max" List.mem_cons_self

end Style

end SourceFormat
