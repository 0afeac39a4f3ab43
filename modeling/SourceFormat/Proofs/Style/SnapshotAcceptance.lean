import Mathlib
import SourceFormat.Proofs.Style.Preferences
import SourceFormat.Proofs.Toml.Assignments
import SourceFormat.Proofs.Toml.Lines

/-!
# Which documents are taken as styles

A document is taken as a style exactly if its root has no keys but the four that it may have,
indentation among them, and each value fits its field; there are 45 of them (`meanings`).  The style
then has what is said, and the stock values elsewhere.  Neither the order of keys and tables nor the
way in which a table is written makes a difference (`parse_accepts_iff`).
-/

namespace SourceFormat.Style

open Toml

/-! ## The fields with their stock values -/

/-- Indentation. -/
def Indent.meanings : List (FieldMeaning Indent) :=
  [count "indent_size" (·.size) 4,
   count "continuation_indent_size" (·.continuation) 8,
   flag "use_tab_character" (·.useTabs) false,
   flag "smart_tabs" (·.smartTabs) false,
   flag "keep_indents_on_empty_lines" (·.keepOnEmptyLines) false,
   offset "label_indent_size" (·.label) 0,
   flag "label_indent_absolute" (·.labelAbsolute) false]

/-- "Space around X". -/
def Spacing.meanings : List (FieldMeaning Spacing) :=
  [flag "around_assignment_operators" (·.aroundAssignment) true,
   flag "around_logical_operators" (·.aroundLogical) true,
   flag "around_relational_operators" (·.aroundRelational) true,
   flag "around_additive_operators" (·.aroundAdditive) true,
   flag "around_multiplicative_operators" (·.aroundMultiplicative) true,
   flag "around_unary_operator" (·.aroundUnary) false,
   flag "before_semicolon" (·.beforeSemicolon) false,
   flag "after_semicolon" (·.afterSemicolon) true,
   flag "within_if_parentheses" (·.withinIfParens) false,
   flag "before_if_parentheses" (·.beforeIfParens) true,
   flag "before_while_parentheses" (·.beforeWhileParens) true,
   flag "within_cast_parentheses" (·.withinCastParens) false,
   flag "after_type_cast" (·.afterCast) true,
   flag "before_method_parentheses" (·.beforeMethodParens) false,
   flag "before_method_lbrace" (·.beforeMethodBrace) true,
   flag "before_method_call_parentheses" (·.beforeCallParens) false,
   flag "within_method_parentheses" (·.withinMethodParens) false,
   flag "within_parentheses" (·.withinParens) false,
   flag "within_brackets" (·.withinBrackets) false,
   flag "before_if_lbrace" (·.beforeIfBrace) true,
   flag "before_do_lbrace" (·.beforeDoBrace) true,
   flag "before_try_lbrace" (·.beforeTryBrace) true,
   flag "before_catch_keyword" (·.beforeCatch) true,
   flag "before_finally_keyword" (·.beforeFinally) true,
   flag "before_finally_lbrace" (·.beforeFinallyBrace) true,
   flag "before_else_keyword" (·.beforeElse) true,
   flag "before_else_lbrace" (·.beforeElseBrace) true,
   flag "before_colon" (·.beforeColon) true,
   flag "after_colon" (·.afterColon) true,
   flag "before_quest" (·.beforeQuestion) true,
   flag "after_quest" (·.afterQuestion) true]

/-- Blank lines. -/
def BlankLines.meanings : List (FieldMeaning BlankLines) :=
  [count "keep_in_declarations" (·.keepInDeclarations) 2,
   count "keep_in_code" (·.keepInCode) 2,
   count "keep_between_package_declaration_and_header" (·.keepBeforeHeader) 2,
   count "before_package" (·.beforePackage) 0,
   count "before_method_body" (·.beforeMethodBody) 0,
   count "around_class" (·.aroundClass) 1]

/-- The four keys of a document.  The stock values of a group that is not given are those of its
fields. -/
def meanings : List (FieldMeaning Style) :=
  [⟨"indent_options", (·.indent), GroupFits Indent.meanings, ReadsAs Indent.meanings, {}⟩,
   flag "do_not_indent_top_level_class_members" (·.flushTopLevelMembers) false,
   ⟨"spacing", (·.spacing), GroupFits Spacing.meanings, ReadsAs Spacing.meanings, {}⟩,
   ⟨"blank_lines", (·.blankLines), GroupFits BlankLines.meanings, ReadsAs BlankLines.meanings, {}⟩]

/-! ## Their readers -/

/-- The fields for indentation are those of its preferences. -/
lemma meanings_indent : Indent.meanings = Indent.preferences.map (meaningOf ({} : Indent)) := rfl

/-- The fields for spacing are those of its preferences. -/
lemma meanings_spacing :
    Spacing.meanings = Spacing.preferences.map (meaningOf ({} : Spacing)) := rfl

/-- The fields for blank lines are those of their preferences. -/
lemma meanings_blankLines :
    BlankLines.meanings = BlankLines.preferences.map (meaningOf ({} : BlankLines)) := rfl

/-- The fields for indentation explain it. -/
lemma explains_indent : Explains Indent.meanings (Indent.preferences.map fieldOf) {} := by
  rw [meanings_indent]
  exact explains_preferences _ isRecord_indent

/-- The fields for spacing explain it. -/
lemma explains_spacing : Explains Spacing.meanings (Spacing.preferences.map fieldOf) {} := by
  rw [meanings_spacing]
  exact explains_preferences _ isRecord_spacing

/-- The fields for blank lines explain them. -/
lemma explains_blankLines :
    Explains BlankLines.meanings (BlankLines.preferences.map fieldOf) {} := by
  rw [meanings_blankLines]
  exact explains_preferences _ isRecord_blankLines

/-- The four keys explain a style. -/
lemma explains_fields : Explains meanings fields {} where
  stock := by
    intro m hm
    simp only [meanings, List.mem_cons, List.not_mem_nil, or_false] at hm
    obtain rfl | rfl | rfl | rfl := hm <;> rfl
  names := by decide
  means := by
    refine .cons ?_ (.cons ?_ (.cons ?_ (.cons ?_ .nil)))
    · exact .of_read explains_indent.groupFits_iff explains_indent.readGroup_iff fun _ _ => rfl
    · exact .of_read (fun _ => .rfl) (fun _ => bool_eq_ok_iff) fun _ _ => rfl
    · exact .of_read explains_spacing.groupFits_iff explains_spacing.readGroup_iff fun _ _ => rfl
    · exact .of_read explains_blankLines.groupFits_iff explains_blankLines.readGroup_iff
        fun _ _ => rfl
  frame := by
    intro f hf item s s' hread m hm hne
    simp only [fields, List.mem_cons, List.not_mem_nil, or_false] at hf
    simp only [meanings, List.mem_cons, List.not_mem_nil, or_false] at hm
    obtain rfl | rfl | rfl | rfl := hf <;>
      · obtain ⟨v, -, rfl⟩ := map_eq_ok_iff.mp hread
        obtain rfl | rfl | rfl | rfl := hm <;> first | rfl | exact absurd rfl hne
  ext := by
    intro s s' hparts
    cases s
    cases s'
    simpa [meanings, flag] using hparts

/-- Every field takes two values that say the same for the same. -/
lemma extensional_meanings : ∀ m ∈ meanings, m.Extensional := by
  intro m hm i j v hsame hsays
  simp only [meanings, List.mem_cons, List.not_mem_nil, or_false] at hm
  obtain rfl | rfl | rfl | rfl := hm
  · rw [meanings_indent] at hsays
    exact hsays.sameValues (extensional_preferences _ _) hsame
  · obtain ⟨span, rfl⟩ := hsays
    exact hsame.scalar
  · rw [meanings_spacing] at hsays
    exact hsays.sameValues (extensional_preferences _ _) hsame
  · rw [meanings_blankLines] at hsays
    exact hsays.sameValues (extensional_preferences _ _) hsame

/-! ## Acceptance -/

section Acceptance

variable {document document' : String} {es es' : Entries}

/-- A document is a style if it has indentation, and is read as that style. -/
lemma parse_eq_ok_iff (h : Toml.parse? document = some es) {s : Style} :
    parse document = .ok s ↔ (es.get? "indent_options").isSome ∧ TableReadsAs meanings es s := by
  rw [← explains_fields.readEntries_iff (distinct_of_parse? h), parse, readDocument, h]
  dsimp only
  cases readEntries fields {} es with
  | error d => simp
  | ok read =>
    dsimp only [indentField]
    by_cases hindent : (es.get? "indent_options").isSome
    · simp [hindent]
    · simp [hindent]

/-- Documents that say the same values are read as the same style. -/
lemma parse_eq_of_sameValues (h : Toml.parse? document = some es)
    (h' : Toml.parse? document' = some es') (hsame : es.SameValues es') {s : Style} :
    parse document' = .ok s ↔ parse document = .ok s := by
  rw [parse_eq_ok_iff h', parse_eq_ok_iff h, hsame.isSome_eq]
  constructor
  · rintro ⟨hindent, hreads⟩
    exact ⟨hindent, hreads.sameValues extensional_meanings hsame.symm⟩
  · rintro ⟨hindent, hreads⟩
    exact ⟨hindent, hreads.sameValues extensional_meanings hsame⟩

/-- **Which documents are taken as styles, and as which.**  A document is taken exactly if
indentation is among the keys of its root, all of them are known, and every value fits its field;
the style has what the values say, and the stock values where nothing is said.  A document that says
the same is taken as the same style, whatever the order of its keys and tables, and whichever way
each of its tables is written in. -/
theorem parse_accepts_iff (h : Toml.parse? document = some es) :
    ((∃ s, parse document = .ok s) ↔
      (es.get? "indent_options").isSome ∧ TableFits meanings es) ∧
    (∀ s, parse document = .ok s ↔
      (es.get? "indent_options").isSome ∧ TableReadsAs meanings es s) ∧
    (∀ document' es', Toml.parse? document' = some es' → es.SameValues es' →
      ∀ s, parse document' = .ok s ↔ parse document = .ok s) ∧
    (∀ document' parts, Layout parts → documentLines? document' = some (parts.flatMap Part.lines) →
      es.SameValues (parts.map Part.entry) →
      ∀ s, parse document' = .ok s ↔ parse document = .ok s) := by
  refine ⟨?_, fun s => parse_eq_ok_iff h, ?_, ?_⟩
  · rw [← explains_fields.exists_tableReadsAs_iff (distinct_of_parse? h), ← exists_and_left]
    exact exists_congr fun s => parse_eq_ok_iff h
  · intro document' es' h' hsame s
    exact parse_eq_of_sameValues h h' hsame
  · intro document' parts hlayout hlines hsame s
    exact parse_eq_of_sameValues h (parse?_parts hlayout hlines) hsame

end Acceptance

/-- A style with its tables under headers. -/
def underHeaders : String :=
  "[spacing]\nafter_colon = false\n\n[indent_options]\nindent_size = 2\n"

/-- The same style in another order, with a dotted key and with braces. -/
def withoutHeaders : String :=
  "indent_options.indent_size = 2\nspacing = \x7b after_colon = false \x7d\n"

/-- A style without headers, in another order, is accepted and read as the one with headers is. -/
theorem parse_accepts_iff_withoutHeaders :
    ∃ es, Toml.parse? underHeaders = some es ∧ TableFits meanings es ∧
      TableReadsAs meanings es { indent := { size := 2 }, spacing := { afterColon := false } } ∧
      parse withoutHeaders
        = .ok { indent := { size := 2 }, spacing := { afterColon := false } } := by
  obtain ⟨p₁, p₂, p₃, p₄, p₅, p₆, p₇, p₈, hparse⟩ : ∃ p₁ p₂ p₃ p₄ p₅ p₆ p₇ p₈,
      Toml.parse? underHeaders =
        some [(⟨"spacing", p₁⟩,
            .table p₂ .header [(⟨"after_colon", p₃⟩, .scalar p₄ (.boolean false))]),
          (⟨"indent_options", p₅⟩,
            .table p₆ .header [(⟨"indent_size", p₇⟩, .scalar p₈ (.integer 2))])] :=
    ⟨_, _, _, _, _, _, _, _, rfl⟩
  obtain ⟨q₁, q₂, q₃, q₄, q₅, q₆, q₇, hlines⟩ : ∃ q₁ q₂ q₃ q₄ q₅ q₆ q₇,
      documentLines? withoutHeaders =
        some (List.flatMap Part.lines
          [.dotted ⟨"indent_options", q₁⟩ (⟨"indent_size", q₂⟩, .scalar q₃ (.integer 2)) [],
            .line ⟨"spacing", q₄⟩
              (.table q₅ .inline [(⟨"after_colon", q₆⟩, .scalar q₇ (.boolean false))])]) :=
    ⟨_, _, _, _, _, _, _, rfl⟩
  obtain ⟨hfits, hreads, -, hlayout⟩ := parse_accepts_iff hparse
  have hread : parse underHeaders
      = .ok { indent := { size := 2 }, spacing := { afterColon := false } } := by
    refine (hreads _).mpr ⟨rfl, by simp [meanings, flag], ?_⟩
    simp only [meanings, List.forall_mem_cons, List.not_mem_nil, false_imp_iff, implies_true,
      and_true]
    refine ⟨.table ⟨?_, ?_⟩, rfl, .table ⟨?_, ?_⟩, rfl⟩
    · simp [Indent.meanings, flag, count, offset]
    · simp [Indent.meanings, flag, count, offset, FieldMeaning.Holds, Entries.get?, Item.IsInteger]
    · simp [Spacing.meanings, flag]
    · simp [Spacing.meanings, flag, FieldMeaning.Holds, Entries.get?, Item.IsBoolean]
  refine ⟨_, hparse, (hfits.mp ⟨_, hread⟩).2, ((hreads _).mp hread).2, ?_⟩
  refine (hlayout withoutHeaders _ ?_ hlines ?_ _).mpr hread
  · exact ⟨by simp [Part.entry], by simp [Part.members], by simp [Part.UnderHeader]⟩
  · have hsize : Entries.SameValues [(⟨"indent_size", p₇⟩, .scalar p₈ (.integer 2))]
        [(⟨"indent_size", q₂⟩, .scalar q₃ (.integer 2))] :=
      .of_forall₂ (.cons ⟨rfl, .scalar_scalar⟩ .nil)
    have hcolon : Entries.SameValues [(⟨"after_colon", p₃⟩, .scalar p₄ (.boolean false))]
        [(⟨"after_colon", q₆⟩, .scalar q₇ (.boolean false))] :=
      .of_forall₂ (.cons ⟨rfl, .scalar_scalar⟩ .nil)
    refine (Entries.SameValues.of_perm (.swap _ _ []) (by simp)).trans (.of_forall₂ ?_)
    exact .cons ⟨rfl, hsize.table⟩ (.cons ⟨rfl, hcolon.table⟩ .nil)

end SourceFormat.Style
