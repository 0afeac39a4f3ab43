import Mathlib
import SourceFormat.OptionFile.Reader

/-!
# What a reader finds in a rendered option file

`ReadsBack` says that a text says just these comment lines, and then just these options.
`readsBack_render` says that the text of an option file does, whatever its comments are, if its
options are `Readable`: a name that a reader can tell from a comment, from the padding behind it and
from the value, and a value on one line.

The text is taken apart into its lines (`toList_render`), a line is read by itself
(`ofChars_recordLine`), and neither step looks at more than one entry of the file.
-/

namespace SourceFormat

/-- An option that a reader can tell from everything else in the file. -/
structure OptionRecord.Readable (r : OptionRecord) : Prop where
  name_ne_nil : r.name.toList ≠ []
  assign_notMem_name : '=' ∉ r.name.toList
  newline_notMem_name : '\n' ∉ r.name.toList
  /-- The line is not taken for a comment. -/
  head_name : r.name.toList.head? ≠ some '#'
  /-- The padding ends where the name does. -/
  last_name : r.name.toList.getLast? ≠ some ' '
  newline_notMem_value : '\n' ∉ r.value.toList

namespace OptionFile

/-- Whether a line is an option. -/
def Line.isOption : Line → Bool
  | .option _ _ => true
  | _ => false

@[simp] lemma Line.isOption_blank : Line.blank.isOption = false := rfl

@[simp] lemma Line.isOption_comment (text : List Char) : (Line.comment text).isOption = false := rfl

@[simp] lemma Line.isOption_option (name value : List Char) :
    (Line.option name value).isOption = true := rfl

/-- What a text says, line by line, empty lines left out. -/
def content (text : String) : List Line :=
  ((rawLines [] text.toList).map Line.ofChars).filter (· ≠ .blank)

/-- The columns of the assign signs of the options in a text, counted from zero. -/
def assignColumns (text : String) : List (Option ℕ) :=
  ((rawLines [] text.toList).filter fun l => (Line.ofChars l).isOption).map
    (List.findIdx? (· = '='))

/-- A text says just these comment lines and then just these options, each with its assign sign in
the column that belongs to its name. -/
structure ReadsBack (text : String) (comments : List String) (options : List OptionRecord) :
    Prop where
  content_eq : content text = (comments.map fun l => .comment l.toList)
    ++ options.map fun r => .option r.name.toList r.value.toList
  read_eq : read text = (comments, options)
  assignColumns_eq : assignColumns text = options.map fun r => some (max 32 r.name.length)

/-! ## Lines -/

/-- A text with a line end in it begins with the line in front of that. -/
lemma rawLines_append {l : List Char} (h : '\n' ∉ l) (current rest : List Char) :
    rawLines current (l ++ '\n' :: rest) = (current.reverse ++ l) :: rawLines [] rest := by
  induction l generalizing current with
  | nil => simp [rawLines]
  | cons c l ih =>
    have hc : c ≠ '\n' := fun hc => h (hc ▸ List.mem_cons_self)
    have hl : '\n' ∉ l := fun hl => h (List.mem_cons_of_mem _ hl)
    simp [rawLines, hc, ih hl]

/-- Lines that are written one after another are read one after another. -/
lemma rawLines_flatMap {ls : List (List Char)} (h : ∀ l ∈ ls, '\n' ∉ l) :
    rawLines [] (ls.flatMap (· ++ ['\n'])) = ls := by
  induction ls with
  | nil => rfl
  | cons l ls ih =>
    have hl : '\n' ∉ l := h l List.mem_cons_self
    have hls : ∀ l ∈ ls, '\n' ∉ l := fun l' hl' => h l' (List.mem_cons_of_mem _ hl')
    rw [List.flatMap_cons, List.append_assoc, List.singleton_append, rawLines_append hl, ih hls]
    rfl

/-- A line of a comment holds no line end, whatever the comment is. -/
lemma newline_notMem_cutLines {current cs : List Char} (h : '\n' ∉ current) {l : List Char}
    (hl : l ∈ Text.cutLines current cs) : '\n' ∉ l := by
  induction cs generalizing current with
  | nil =>
    unfold Text.cutLines at hl
    split at hl
    · cases hl
    · rw [List.mem_singleton] at hl
      rw [hl]
      simpa using h
  | cons c cs ih =>
    unfold Text.cutLines at hl
    split at hl
    · rcases List.mem_cons.mp hl with rfl | hl
      · have hsub : Text.dropReturn current.reverse ⊆ current.reverse := by
          unfold Text.dropReturn
          split
          · exact List.dropLast_subset _
          · exact List.Subset.refl _
        exact fun hmem => h (List.mem_reverse.mp (hsub hmem))
      · exact ih List.not_mem_nil hl
    · rename_i hc
      refine ih ?_ hl
      rw [List.mem_cons]
      rintro (hc' | hmem)
      · exact hc hc'.symm
      · exact h hmem

/-- No line of a text has a line end in it. -/
lemma newline_notMem_lines {text l : String} (h : l ∈ Text.lines text) : '\n' ∉ l.toList := by
  obtain ⟨cs, hcs, rfl⟩ := List.mem_map.mp h
  rw [String.toList_ofList]
  exact newline_notMem_cutLines List.not_mem_nil hcs

/-! ## The lines of a file -/

/-- The line of a comment line. -/
def commentLine (l : String) : List Char :=
  '#' :: ' ' :: l.toList

/-- The line of an option. -/
def recordLine (r : OptionRecord) : List Char :=
  r.name.toList ++ (padding r.name).toList ++ '=' :: ' ' :: r.value.toList

/-- The lines of a file. -/
def writtenLines (f : OptionFile) : List (List Char) :=
  (f.comments.flatMap Text.lines).map commentLine ++ f.options.flatMap fun r => [recordLine r, []]

/-- A comment is written as its lines, each of them with a line end. -/
lemma toList_renderComment (text : String) :
    (renderComment text).toList = ((Text.lines text).map commentLine).flatMap (· ++ ['\n']) := by
  simp [renderComment, commentLine, String.toList_join, List.flatMap_map]

/-- An option is written as its line and an empty one. -/
lemma toList_renderOption (r : OptionRecord) :
    (renderOption r).toList = [recordLine r, []].flatMap (· ++ ['\n']) := by
  simp [renderOption, recordLine]

/-- A file is written as its lines, each of them with a line end. -/
lemma toList_render (f : OptionFile) :
    f.render.toList = f.writtenLines.flatMap (· ++ ['\n']) := by
  simp [render, entries, writtenLines, String.toList_join, List.flatMap_map, Entry.text,
    toList_renderComment, toList_renderOption, List.flatMap_assoc]

/-! ## Reading a line -/

/-- Behind a name there are blanks up to the column of the assign sign. -/
lemma toList_padding (name : String) :
    (padding name).toList = List.replicate (assignColumn - name.length) ' ' := by
  simp [padding]

/-- Blanks at the end are dropped, and nothing else. -/
lemma dropPadding_append {cs : List Char} (h : cs.getLast? ≠ some ' ') (n : ℕ) :
    dropPadding (cs ++ List.replicate n ' ') = cs := by
  have hpad : ∀ c ∈ List.replicate n ' ', decide (c = ' ') = true := by
    intro c hc
    simpa using List.eq_of_mem_replicate hc
  have hcs : cs.reverse.dropWhile (· = ' ') = cs.reverse := by
    rw [List.dropWhile_eq_self_iff]
    intro hlen hblank
    apply h
    rw [← List.head?_reverse, List.head?_eq_getElem?, List.getElem?_eq_getElem hlen]
    simpa using hblank
  rw [dropPadding, List.reverse_append, List.reverse_replicate, List.dropWhile_append_of_pos hpad,
    hcs, List.reverse_reverse]

@[simp] lemma ofChars_nil : Line.ofChars [] = .blank := rfl

@[simp] lemma ofChars_commentLine (l : String) :
    Line.ofChars (commentLine l) = .comment l.toList := rfl

/-- A line that does not begin a comment is an option: a name, and behind the assign sign a
value. -/
lemma ofChars_of_head {c : Char} (hc : c ≠ '#') (cs : List Char) :
    Line.ofChars (c :: cs) =
      .option (dropPadding ((c :: cs).takeWhile (· ≠ '=')))
        (dropOneBlank (((c :: cs).dropWhile (· ≠ '=')).drop 1)) := by
  unfold Line.ofChars
  split
  · rename_i h
    cases h
  · rename_i h
    exact absurd (List.cons.inj h).1 hc
  · rfl

/-- What stands before the assign sign of an option: its name and the padding. -/
lemma assign_notMem_padded {r : OptionRecord} (h : r.Readable) :
    ∀ c ∈ r.name.toList ++ (padding r.name).toList, decide (c ≠ '=') = true := by
  intro c hc
  rw [decide_eq_true_eq]
  rintro rfl
  rcases List.mem_append.mp hc with hname | hpad
  · exact h.assign_notMem_name hname
  · rw [toList_padding] at hpad
    exact absurd (List.eq_of_mem_replicate hpad) (by decide)

/-- The line of a readable option is read as that option. -/
lemma ofChars_recordLine {r : OptionRecord} (h : r.Readable) :
    Line.ofChars (recordLine r) = .option r.name.toList r.value.toList := by
  have hbefore := assign_notMem_padded h
  obtain ⟨c, cs, hname⟩ := List.exists_cons_of_ne_nil h.name_ne_nil
  have hc : c ≠ '#' := by
    have := h.head_name
    simpa [hname] using this
  have hline : recordLine r
      = c :: (cs ++ (padding r.name).toList ++ '=' :: ' ' :: r.value.toList) := by
    simp [recordLine, hname]
  rw [hline, ofChars_of_head hc, ← hline, recordLine, List.takeWhile_append_of_pos hbefore,
    List.dropWhile_append_of_pos hbefore]
  simp [toList_padding, dropPadding_append h.last_name, dropOneBlank]

/-- In the line of a readable option the assign sign stands in the column for its name. -/
lemma findIdx?_recordLine {r : OptionRecord} (h : r.Readable) :
    (recordLine r).findIdx? (· = '=') = some (max 32 r.name.length) := by
  have hbefore := assign_notMem_padded h
  have hnone : (r.name.toList ++ (padding r.name).toList).findIdx? (· = '=') = none := by
    rw [List.findIdx?_eq_none_iff]
    intro c hc
    simpa using hbefore c hc
  have hassign : ('=' :: ' ' :: r.value.toList).findIdx? (· = '=') = some 0 := by
    simp [List.findIdx?_cons]
  rw [recordLine, List.findIdx?_append, hnone, hassign]
  simp only [toList_padding, assignColumn, List.length_append, String.length_toList,
    List.length_replicate, Option.map_some, Option.none_or, Option.some.injEq]
  omega

/-! ## Reading a file -/

/-- No line that is written has a line end in it. -/
lemma newline_notMem_writtenLines {f : OptionFile} (h : ∀ r ∈ f.options, r.Readable)
    {l : List Char} (hl : l ∈ f.writtenLines) : '\n' ∉ l := by
  rcases List.mem_append.mp hl with hl | hl
  · obtain ⟨line, hline, rfl⟩ := List.mem_map.mp hl
    obtain ⟨text, -, hline⟩ := List.mem_flatMap.mp hline
    simpa [commentLine] using newline_notMem_lines hline
  · obtain ⟨r, hr, hl⟩ := List.mem_flatMap.mp hl
    have hreadable := h r hr
    rcases List.mem_pair.mp hl with rfl | rfl
    · simp [recordLine, toList_padding, hreadable.newline_notMem_name,
        hreadable.newline_notMem_value]
    · exact List.not_mem_nil

/-- The lines of a rendered file are the lines that were written. -/
lemma rawLines_render {f : OptionFile} (h : ∀ r ∈ f.options, r.Readable) :
    rawLines [] f.render.toList = f.writtenLines := by
  rw [toList_render, rawLines_flatMap fun l hl => newline_notMem_writtenLines h hl]

/-- The options are found, and the empty lines behind them are nothing. -/
lemma filter_options {options : List OptionRecord} (h : ∀ r ∈ options, r.Readable) :
    ((options.flatMap fun r => [recordLine r, []]).map Line.ofChars).filter (· ≠ .blank) =
      options.map fun r => .option r.name.toList r.value.toList := by
  induction options with
  | nil => rfl
  | cons r options ih =>
    have hr := ofChars_recordLine (h r List.mem_cons_self)
    have hoptions := ih fun r' hr' => h r' (List.mem_cons_of_mem _ hr')
    simpa [hr] using hoptions

/-- A rendered file says its comments line by line, and then its options. -/
lemma content_render {f : OptionFile} (h : ∀ r ∈ f.options, r.Readable) :
    content f.render = ((f.comments.flatMap Text.lines).map fun l => .comment l.toList)
      ++ f.options.map fun r => .option r.name.toList r.value.toList := by
  have hcomments : ∀ ls : List String, ((ls.map commentLine).map Line.ofChars).filter (· ≠ .blank)
      = ls.map fun l => .comment l.toList := by
    intro ls
    rw [List.map_map, List.filter_eq_self.mpr]
    · rfl
    · intro l hl
      obtain ⟨text, -, rfl⟩ := List.mem_map.mp hl
      rfl
  rw [content, rawLines_render h, writtenLines, List.map_append, List.filter_append, hcomments,
    filter_options h]

/-- What a reader makes of a text follows from what the text says. -/
lemma read_eq_of_content {text : String} {comments : List String} {options : List OptionRecord}
    (h : content text = (comments.map fun l => .comment l.toList)
      ++ options.map fun r => .option r.name.toList r.value.toList) :
    read text = (comments, options) := by
  have hskip : ∀ {β : Type} (p : Line → Option β), p .blank = none →
      ((rawLines [] text.toList).map Line.ofChars).filterMap p = (content text).filterMap p := by
    intro β p hp
    rw [content, List.filterMap_filter]
    refine List.filterMap_congr fun l _ => ?_
    cases l <;> simp [hp]
  simp only [read]
  rw [hskip _ rfl, hskip _ rfl, h]
  simp

/-- In a rendered file the assign signs stand in the columns for the names. -/
lemma assignColumns_render {f : OptionFile} (h : ∀ r ∈ f.options, r.Readable) :
    assignColumns f.render = f.options.map fun r => some (max 32 r.name.length) := by
  have hcomments : ∀ ls : List String,
      (ls.map commentLine).filter (fun l => (Line.ofChars l).isOption) = [] := by
    intro ls
    rw [List.filter_eq_nil_iff]
    intro l hl
    obtain ⟨text, -, rfl⟩ := List.mem_map.mp hl
    simp
  have hoptions : ∀ rs : List OptionRecord, (∀ r ∈ rs, r.Readable) →
      ((rs.flatMap fun r => [recordLine r, []]).filter fun l => (Line.ofChars l).isOption)
        = rs.map recordLine := by
    intro rs hrs
    induction rs with
    | nil => rfl
    | cons r rs ih =>
      have hr := ofChars_recordLine (hrs r List.mem_cons_self)
      have hrest := ih fun r' hr' => hrs r' (List.mem_cons_of_mem _ hr')
      simp [hr, hrest]
  rw [assignColumns, rawLines_render h, writtenLines, List.filter_append, hcomments,
    hoptions _ h, List.nil_append, List.map_map]
  exact List.map_congr_left fun r hr => findIdx?_recordLine (h r hr)

/-- The text of a file with readable options says what the file holds, whatever its comments are. -/
theorem readsBack_render {f : OptionFile} (h : ∀ r ∈ f.options, r.Readable) :
    ReadsBack f.render (f.comments.flatMap Text.lines) f.options where
  content_eq := content_render h
  read_eq := read_eq_of_content (content_render h)
  assignColumns_eq := assignColumns_render h

end OptionFile

end SourceFormat
