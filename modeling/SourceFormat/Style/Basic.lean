/-!
# Code style preferences

What an editor knows about the code style its user wants, grouped as the editor groups it:
indentation, "space around X" and blank lines.  Every preference has a stock value, so a group
that is not mentioned is the group of stock values; only indentation has to be mentioned when a
style is read from a file (`SourceFormat.Style.Snapshot`).

Counts are 32-bit words and the label indent is a signed 32-bit word: those are the values an
editor can hold, and the export below them saturates at their end.

Each group lists its preferences once (`preferences`), by the name they carry in files, in the
order in which a group may also be written positionally.
-/

namespace SourceFormat

/-- Where a group keeps one preference, and which kind of value it is. -/
inductive Preference.Cell (σ : Type) where
  | flag (get : σ → Bool) (set : σ → Bool → σ)
  | count (get : σ → UInt32) (set : σ → UInt32 → σ)
  | offset (get : σ → Int32) (set : σ → Int32 → σ)

/-- One preference of a group, by the name it carries in files. -/
structure Preference (σ : Type) where
  name : String
  cell : Preference.Cell σ

namespace Style

/-- Indentation. -/
structure Indent where
  /-- Width of one level, in columns. -/
  size : UInt32 := 4
  /-- Width of a continuation line's indent, in columns. -/
  continuation : UInt32 := 8
  /-- Indent with tab characters. -/
  useTabs : Bool := false
  /-- Tabs for indentation, blanks for alignment; means something only with tabs. -/
  smartTabs : Bool := false
  /-- Keep the indentation of lines that are otherwise empty. -/
  keepOnEmptyLines : Bool := false
  /-- Where labels go: a column counted from one if `labelAbsolute`, else an offset from the
  code around them. -/
  label : Int32 := 0
  labelAbsolute : Bool := false
  deriving Repr, DecidableEq

/-- The preferences of `Indent`, in positional order. -/
def Indent.preferences : List (Preference Indent) :=
  [⟨"indent_size", .count (·.size) fun s v => { s with size := v }⟩,
   ⟨"continuation_indent_size", .count (·.continuation) fun s v => { s with continuation := v }⟩,
   ⟨"use_tab_character", .flag (·.useTabs) fun s v => { s with useTabs := v }⟩,
   ⟨"smart_tabs", .flag (·.smartTabs) fun s v => { s with smartTabs := v }⟩,
   ⟨"keep_indents_on_empty_lines",
     .flag (·.keepOnEmptyLines) fun s v => { s with keepOnEmptyLines := v }⟩,
   ⟨"label_indent_size", .offset (·.label) fun s v => { s with label := v }⟩,
   ⟨"label_indent_absolute", .flag (·.labelAbsolute) fun s v => { s with labelAbsolute := v }⟩]

/-- "Space around X". -/
structure Spacing where
  aroundAssignment : Bool := true
  aroundLogical : Bool := true
  aroundRelational : Bool := true
  aroundAdditive : Bool := true
  aroundMultiplicative : Bool := true
  /-- Sign, inversion, address-of, increment and decrement, logical not, dereference. -/
  aroundUnary : Bool := false
  beforeSemicolon : Bool := false
  afterSemicolon : Bool := true
  withinIfParens : Bool := false
  beforeIfParens : Bool := true
  beforeWhileParens : Bool := true
  withinCastParens : Bool := false
  afterCast : Bool := true
  beforeMethodParens : Bool := false
  beforeMethodBrace : Bool := true
  beforeCallParens : Bool := false
  withinMethodParens : Bool := false
  withinParens : Bool := false
  withinBrackets : Bool := false
  beforeIfBrace : Bool := true
  beforeDoBrace : Bool := true
  beforeTryBrace : Bool := true
  beforeCatch : Bool := true
  beforeFinally : Bool := true
  beforeFinallyBrace : Bool := true
  beforeElse : Bool := true
  beforeElseBrace : Bool := true
  /-- Before the `:` of a conditional expression. -/
  beforeColon : Bool := true
  /-- After the `:` of a conditional expression. -/
  afterColon : Bool := true
  /-- Before the `?` of a conditional expression. -/
  beforeQuestion : Bool := true
  /-- After the `?` of a conditional expression. -/
  afterQuestion : Bool := true
  deriving Repr, DecidableEq

/-- The preferences of `Spacing`, in positional order. -/
def Spacing.preferences : List (Preference Spacing) :=
  [⟨"around_assignment_operators",
     .flag (·.aroundAssignment) fun s v => { s with aroundAssignment := v }⟩,
   ⟨"around_logical_operators",
     .flag (·.aroundLogical) fun s v => { s with aroundLogical := v }⟩,
   ⟨"around_relational_operators",
     .flag (·.aroundRelational) fun s v => { s with aroundRelational := v }⟩,
   ⟨"around_additive_operators",
     .flag (·.aroundAdditive) fun s v => { s with aroundAdditive := v }⟩,
   ⟨"around_multiplicative_operators",
     .flag (·.aroundMultiplicative) fun s v => { s with aroundMultiplicative := v }⟩,
   ⟨"around_unary_operator", .flag (·.aroundUnary) fun s v => { s with aroundUnary := v }⟩,
   ⟨"before_semicolon", .flag (·.beforeSemicolon) fun s v => { s with beforeSemicolon := v }⟩,
   ⟨"after_semicolon", .flag (·.afterSemicolon) fun s v => { s with afterSemicolon := v }⟩,
   ⟨"within_if_parentheses", .flag (·.withinIfParens) fun s v => { s with withinIfParens := v }⟩,
   ⟨"before_if_parentheses", .flag (·.beforeIfParens) fun s v => { s with beforeIfParens := v }⟩,
   ⟨"before_while_parentheses",
     .flag (·.beforeWhileParens) fun s v => { s with beforeWhileParens := v }⟩,
   ⟨"within_cast_parentheses",
     .flag (·.withinCastParens) fun s v => { s with withinCastParens := v }⟩,
   ⟨"after_type_cast", .flag (·.afterCast) fun s v => { s with afterCast := v }⟩,
   ⟨"before_method_parentheses",
     .flag (·.beforeMethodParens) fun s v => { s with beforeMethodParens := v }⟩,
   ⟨"before_method_lbrace",
     .flag (·.beforeMethodBrace) fun s v => { s with beforeMethodBrace := v }⟩,
   ⟨"before_method_call_parentheses",
     .flag (·.beforeCallParens) fun s v => { s with beforeCallParens := v }⟩,
   ⟨"within_method_parentheses",
     .flag (·.withinMethodParens) fun s v => { s with withinMethodParens := v }⟩,
   ⟨"within_parentheses", .flag (·.withinParens) fun s v => { s with withinParens := v }⟩,
   ⟨"within_brackets", .flag (·.withinBrackets) fun s v => { s with withinBrackets := v }⟩,
   ⟨"before_if_lbrace", .flag (·.beforeIfBrace) fun s v => { s with beforeIfBrace := v }⟩,
   ⟨"before_do_lbrace", .flag (·.beforeDoBrace) fun s v => { s with beforeDoBrace := v }⟩,
   ⟨"before_try_lbrace", .flag (·.beforeTryBrace) fun s v => { s with beforeTryBrace := v }⟩,
   ⟨"before_catch_keyword", .flag (·.beforeCatch) fun s v => { s with beforeCatch := v }⟩,
   ⟨"before_finally_keyword", .flag (·.beforeFinally) fun s v => { s with beforeFinally := v }⟩,
   ⟨"before_finally_lbrace",
     .flag (·.beforeFinallyBrace) fun s v => { s with beforeFinallyBrace := v }⟩,
   ⟨"before_else_keyword", .flag (·.beforeElse) fun s v => { s with beforeElse := v }⟩,
   ⟨"before_else_lbrace", .flag (·.beforeElseBrace) fun s v => { s with beforeElseBrace := v }⟩,
   ⟨"before_colon", .flag (·.beforeColon) fun s v => { s with beforeColon := v }⟩,
   ⟨"after_colon", .flag (·.afterColon) fun s v => { s with afterColon := v }⟩,
   ⟨"before_quest", .flag (·.beforeQuestion) fun s v => { s with beforeQuestion := v }⟩,
   ⟨"after_quest", .flag (·.afterQuestion) fun s v => { s with afterQuestion := v }⟩]

/-- Blank lines.  The "keep" counts are the most the editor preserves, the others the fewest it
puts in. -/
structure BlankLines where
  keepInDeclarations : UInt32 := 2
  keepInCode : UInt32 := 2
  keepBeforeHeader : UInt32 := 2
  beforePackage : UInt32 := 0
  beforeMethodBody : UInt32 := 0
  aroundClass : UInt32 := 1
  deriving Repr, DecidableEq

/-- The preferences of `BlankLines`, in positional order. -/
def BlankLines.preferences : List (Preference BlankLines) :=
  [⟨"keep_in_declarations",
     .count (·.keepInDeclarations) fun s v => { s with keepInDeclarations := v }⟩,
   ⟨"keep_in_code", .count (·.keepInCode) fun s v => { s with keepInCode := v }⟩,
   ⟨"keep_between_package_declaration_and_header",
     .count (·.keepBeforeHeader) fun s v => { s with keepBeforeHeader := v }⟩,
   ⟨"before_package", .count (·.beforePackage) fun s v => { s with beforePackage := v }⟩,
   ⟨"before_method_body",
     .count (·.beforeMethodBody) fun s v => { s with beforeMethodBody := v }⟩,
   ⟨"around_class", .count (·.aroundClass) fun s v => { s with aroundClass := v }⟩]

end Style

/-- An editor's code style. -/
structure Style where
  indent : Style.Indent := {}
  /-- Keep the members of a top-level class flush with its declaration. -/
  flushTopLevelMembers : Bool := false
  spacing : Style.Spacing := {}
  blankLines : Style.BlankLines := {}
  deriving Repr, DecidableEq

end SourceFormat
