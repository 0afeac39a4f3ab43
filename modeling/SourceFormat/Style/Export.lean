import SourceFormat.OptionFile.Basic
import SourceFormat.Style.Basic

/-!
# From a code style to an option file

`Style.exported` writes every preference down in the formatter's terms: 61 options, always the same
ones in the same order, so that equal styles give equal files.  The editor's model is coarser than
the formatter's in places (one preference for unary operators drives six options) and finer in
others: a label indent that is relative to the code has no counterpart and becomes 0.  A positive
one that is lost that way is reported as a `LossyConversion`.
-/

namespace SourceFormat

namespace Style

/-- A spacing option's value.  The formatter knows more of them; a preference never asks for
those. -/
inductive SpaceToken where
  /-- Exactly one blank. -/
  | force
  /-- No blank. -/
  | remove
  deriving Repr, DecidableEq

/-- The value that expresses a preference. -/
def SpaceToken.ofFlag (active : Bool) : SpaceToken :=
  if active then .force else .remove

/-- The spelling in an option file. -/
def SpaceToken.text : SpaceToken → String
  | .force => "force"
  | .remove => "remove"

/-- How lines are indented. -/
inductive TabMode where
  | spaces
  | tabs
  | smartTabs
  deriving Repr, DecidableEq

/-- The mode that expresses the two tab preferences: the second counts only where the first is
set. -/
def TabMode.ofFlags (useTabs smartTabs : Bool) : TabMode :=
  if useTabs then (if smartTabs then .smartTabs else .tabs) else .spaces

/-- The spelling in an option file. -/
def TabMode.text : TabMode → String
  | .spaces => "0"
  | .tabs => "1"
  | .smartTabs => "2"

/-- A value that the option file cannot express, with the one written in its place. -/
structure LossyConversion where
  option : String
  requested : Int32
  emitted : Int32
  deriving Repr, DecidableEq

/-- The report of a lossy conversion. -/
def LossyConversion.text (l : LossyConversion) : String :=
  "'" ++ l.option ++ "' cannot express " ++ toString l.requested.toInt ++ ", emitted "
    ++ toString l.emitted.toInt ++ " instead"

/-- An option file together with everything that was lost on the way. -/
structure Export where
  file : OptionFile
  warnings : List LossyConversion
  deriving Repr, DecidableEq

/-- The comment at the head of every exported file. -/
def headerComment : String :=
  "Generated by uncrustify-bridge from editor code style settings"

/-- The spelling of a flag option. -/
def flagText (b : Bool) : String :=
  if b then "true" else "false"

/-- The spelling of a count. -/
def countText (n : UInt32) : String :=
  toString n.toNat

/-- The label indent in the formatter's terms.  An absolute column is counted from one by the editor
and from zero by the formatter; a relative one becomes zero, with a report if it was positive. -/
def labelIndent (i : Indent) : Int32 × Option LossyConversion :=
  if i.labelAbsolute then (i.label - 1, none)
  else (0, if 0 < i.label then some ⟨"indent_label", i.label, 0⟩ else none)

/-- The options for indentation. -/
def indentOptions (s : Style) : List OptionRecord :=
  [⟨"indent_class", flagText !s.flushTopLevelMembers⟩,
   ⟨"indent_columns", countText s.indent.size⟩,
   ⟨"indent_continue", countText s.indent.continuation⟩,
   ⟨"indent_with_tabs", (TabMode.ofFlags s.indent.useTabs s.indent.smartTabs).text⟩,
   ⟨"indent_single_newlines", flagText s.indent.keepOnEmptyLines⟩,
   ⟨"indent_label", toString (labelIndent s.indent).1.toInt⟩]

/-- Each spacing option with the preference that drives it. -/
def spacingTable : List (String × (Spacing → Bool)) :=
  [("sp_arith_additive", (·.aroundAdditive)),
   -- drives shifts and bitwise operators too
   ("sp_arith", (·.aroundMultiplicative)),
   ("sp_assign", (·.aroundAssignment)),
   ("sp_bool", (·.aroundLogical)),
   ("sp_compare", (·.aroundRelational)),
   ("sp_sign", (·.aroundUnary)),
   ("sp_inv", (·.aroundUnary)),
   ("sp_addr", (·.aroundUnary)),
   ("sp_incdec", (·.aroundUnary)),
   ("sp_not", (·.aroundUnary)),
   ("sp_deref", (·.aroundUnary)),
   ("sp_before_semi_for", (·.beforeSemicolon)),
   ("sp_before_semi_for_empty", (·.beforeSemicolon)),
   ("sp_after_semi_for", (·.afterSemicolon)),
   ("sp_after_semi_for_empty", (·.afterSemicolon)),
   -- the parentheses of `if`, `for`, `switch` and `while` alike
   ("sp_inside_sparen", (·.withinIfParens)),
   ("sp_before_sparen", (·.beforeIfParens)),
   ("sp_while_paren_open", (·.beforeWhileParens)),
   ("sp_inside_paren_cast", (·.withinCastParens)),
   ("sp_after_cast", (·.afterCast)),
   ("sp_func_proto_paren", (·.beforeMethodParens)),
   ("sp_func_proto_paren_empty", (·.beforeMethodParens)),
   ("sp_func_def_paren", (·.beforeMethodParens)),
   ("sp_func_def_paren_empty", (·.beforeMethodParens)),
   ("sp_fparen_brace", (·.beforeMethodBrace)),
   ("sp_func_call_paren", (·.beforeCallParens)),
   ("sp_inside_fparen", (·.withinMethodParens)),
   ("sp_inside_fparens", (·.withinMethodParens)),
   ("sp_inside_paren", (·.withinParens)),
   ("sp_paren_paren", (·.withinParens)),
   ("sp_inside_square", (·.withinBrackets)),
   -- no preference covers empty brackets
   ("sp_inside_square_empty", fun _ => false),
   ("sp_sparen_brace", (·.beforeIfBrace)),
   ("sp_do_brace_open", (·.beforeDoBrace)),
   ("sp_try_brace", (·.beforeTryBrace)),
   ("sp_brace_catch", (·.beforeCatch)),
   ("sp_brace_finally", (·.beforeFinally)),
   ("sp_finally_brace", (·.beforeFinallyBrace)),
   ("sp_brace_else", (·.beforeElse)),
   ("sp_else_brace", (·.beforeElseBrace)),
   ("sp_cond_colon_before", (·.beforeColon)),
   ("sp_cond_colon_after", (·.afterColon)),
   ("sp_cond_question_before", (·.beforeQuestion)),
   ("sp_cond_question_after", (·.afterQuestion))]

/-- The options for spacing. -/
def spacingOptions (sp : Spacing) : List OptionRecord :=
  spacingTable.map fun (name, active) => ⟨name, (SpaceToken.ofFlag (active sp)).text⟩

/-- `n` blank lines are `n + 1` newlines; the count stays at the largest word. -/
def newlines (blankLines : UInt32) : UInt32 :=
  if blankLines = UInt32.ofNat 0xFFFFFFFF then blankLines else blankLines + 1

/-- The largest of the three counts of blank lines that are kept. -/
def BlankLines.mostKept (b : BlankLines) : UInt32 :=
  max (max b.keepInDeclarations b.keepInCode) b.keepBeforeHeader

/-- The options for blank lines. -/
def blankLineOptions (b : BlankLines) : List OptionRecord :=
  [⟨"nl_start_of_file", countText b.beforePackage⟩,
   ⟨"nl_max", countText (newlines b.mostKept)⟩,
   ⟨"nl_max_blank_in_func", countText (newlines b.keepInCode)⟩,
   ⟨"nl_inside_empty_func", countText (newlines b.keepInCode)⟩,
   ⟨"nl_before_func_body_def", countText (newlines b.beforeMethodBody)⟩,
   ⟨"nl_before_func_class_def", countText (newlines b.beforeMethodBody)⟩,
   ⟨"nl_before_func_class_proto", countText (newlines b.beforeMethodBody)⟩,
   ⟨"nl_before_func_body_proto", countText (newlines b.beforeMethodBody)⟩,
   ⟨"nl_before_class", countText (newlines b.aroundClass)⟩,
   ⟨"nl_after_class", countText (newlines b.aroundClass)⟩]

/-- All options of a style, in the order in which they are written. -/
def exportOptions (s : Style) : List OptionRecord :=
  -- no preference covers the newline style
  ⟨"newlines", "lf"⟩ ::
    (indentOptions s ++ spacingOptions s.spacing ++ blankLineOptions s.blankLines)

/-- The option file of a style, with what was lost on the way. -/
def exported (s : Style) : Export where
  file := { comments := [headerComment], options := exportOptions s }
  warnings := (labelIndent s.indent).2.toList

end Style

end SourceFormat
