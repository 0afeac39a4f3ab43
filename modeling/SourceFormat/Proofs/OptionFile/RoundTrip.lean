import Mathlib
import SourceFormat.Proofs.Style.ExportedOptions

/-!
# Option files survive being written and read

An option file is built by adding comments and options, in whatever order.  `additions_read_back`
says that a reader of its text finds the lines of the comments and then the options, each in the
order in which they were added and nothing else: no line of a comment is ever taken for an option,
and the two kinds are told apart although they were added in any order.  The files that styles are
exported to are of this kind.
-/

namespace SourceFormat.OptionFile

/-- One step of building an option file. -/
inductive Addition where
  | comment (text : String)
  | option (record : OptionRecord)
  deriving Repr, DecidableEq

/-- The comment that a step adds. -/
def Addition.comment? : Addition → Option String
  | comment text => some text
  | option _ => none

/-- The option that a step adds. -/
def Addition.record? : Addition → Option OptionRecord
  | comment _ => none
  | option record => some record

/-- The file behind one more step. -/
def add (f : OptionFile) : Addition → OptionFile
  | .comment text => f.pushComment text
  | .option record => f.push record.name record.value

/-- The file that some steps build. -/
def ofAdditions (steps : List Addition) : OptionFile :=
  steps.foldl add empty

/-- What is added comes behind what was there, comments and options apart. -/
lemma foldl_add (steps : List Addition) (f : OptionFile) :
    steps.foldl add f =
      { comments := f.comments ++ steps.filterMap Addition.comment?,
        options := f.options ++ steps.filterMap Addition.record? } := by
  induction steps generalizing f with
  | nil => simp
  | cons step steps ih =>
    rw [List.foldl_cons, ih]
    cases step with
    | comment text =>
      simp [List.filterMap_cons, Addition.comment?, Addition.record?, add, pushComment]
    | option record =>
      simp [List.filterMap_cons, Addition.comment?, Addition.record?, add, push]

/-- A file holds what was added, the comments and the options each in their order. -/
lemma ofAdditions_eq (steps : List Addition) :
    ofAdditions steps =
      { comments := steps.filterMap Addition.comment?,
        options := steps.filterMap Addition.record? } := by
  rw [ofAdditions, foldl_add]
  rfl

/-- **Written files are read back.** Whatever comments and readable options were added, in whatever
order: the text of the file says the lines of the comments and then the options, each in the order
in which they were added, and every assign sign stands in column 32 or, behind a longer name,
directly behind the name.  The text of every exported style does so too. -/
theorem additions_read_back :
    (∀ steps : List Addition, (∀ r ∈ steps.filterMap Addition.record?, r.Readable) →
      ReadsBack (ofAdditions steps).render
        ((steps.filterMap Addition.comment?).flatMap Text.lines)
        (steps.filterMap Addition.record?)) ∧
    (∀ s : Style, ReadsBack s.exported.file.render
      (Text.lines Style.headerComment) (Style.exportOptions s)) := by
  refine ⟨?_, ?_⟩
  · intro steps h
    rw [ofAdditions_eq]
    exact readsBack_render h
  · intro s
    have h := readsBack_render (f := s.exported.file) fun r hr =>
      Style.readable_of_mem_exportOptions hr
    rwa [Style.exported, List.flatMap_singleton] at h

/-- Steps with a comment of three lines that looks like an option, between an option whose value
begins and ends with a blank and one whose name leaves no room for padding. -/
def mixedSteps : List Addition :=
  [.option ⟨"indent_columns", " 4 "⟩, .comment "nl_max = 1\r\n\nnl_max",
    .option ⟨"a_name_that_is_longer_than_the_column", ""⟩]

/-- Comments and options in turns, one of them with blanks for a value and one with a long name. -/
theorem additions_read_back_mixedSteps :
    (∀ r ∈ mixedSteps.filterMap Addition.record?, r.Readable) ∧
      read (ofAdditions mixedSteps).render =
        (["nl_max = 1", "", "nl_max"],
          [⟨"indent_columns", " 4 "⟩, ⟨"a_name_that_is_longer_than_the_column", ""⟩]) ∧
      assignColumns (ofAdditions mixedSteps).render = [some 32, some 37] := by
  have hreadable : ∀ r ∈ mixedSteps.filterMap Addition.record?, r.Readable := by
    intro r hr
    simp only [mixedSteps, Addition.record?, List.filterMap_cons, List.filterMap_nil,
      List.mem_pair] at hr
    rcases hr with rfl | rfl <;> constructor <;> decide
  have h := additions_read_back.1 mixedSteps hreadable
  refine ⟨hreadable, ?_, ?_⟩
  · rw [h.read_eq]
    decide +kernel
  · rw [h.assignColumns_eq]
    decide +kernel

end SourceFormat.OptionFile
