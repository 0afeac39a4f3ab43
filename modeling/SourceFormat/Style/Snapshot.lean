import SourceFormat.Style.Basic
import SourceFormat.Toml.Reading

/-!
# Styles in files

A code style is kept in a file as a TOML document with the groups as tables.  A group that is not
there has its stock values, with one exception: a document that does not mention indentation is
refused, so that a file with some other purpose is not taken for a style.
-/

namespace SourceFormat.Style

open Toml

/-- The field of a preference. -/
def fieldOf {σ : Type} (p : Preference σ) : GroupField σ where
  name := p.name
  read := fun item group =>
    match p.cell with
    | .flag _ set => item.bool.map (set group)
    | .count _ set => item.word32.map (set group)
    | .offset _ set => item.signed32.map (set group)

/-- The name of the group that every document must mention. -/
def indentField : String := "indent_options"

/-- The fields of a whole style. -/
def fields : List (GroupField Style) :=
  [⟨indentField, fun item s =>
      (readGroup "IndentOptions" (Indent.preferences.map fieldOf) {} item).map
        fun g => { s with indent := g }⟩,
   ⟨"do_not_indent_top_level_class_members", fun item s =>
      item.bool.map fun b => { s with flushTopLevelMembers := b }⟩,
   ⟨"spacing", fun item s =>
      (readGroup "SpacingSettings" (Spacing.preferences.map fieldOf) {} item).map
        fun g => { s with spacing := g }⟩,
   ⟨"blank_lines", fun item s =>
      (readGroup "BlankLineSettings" (BlankLines.preferences.map fieldOf) {} item).map
        fun g => { s with blankLines := g }⟩]

/-- Read a style from the text of a document. -/
def parse (document : String) : Except ReadError Style :=
  match readDocument fields {} document with
  | .error e => .error e
  | .ok (es, s) =>
    if (es.get? indentField).isSome then .ok s
    else .error (.unfit ⟨⟨document.toList, document.toList⟩, .missingField indentField⟩)

/-- What stands before the text of a document that is no style. -/
def invalidText (reason : String) : String :=
  "Invalid style settings: " ++ reason

end SourceFormat.Style
