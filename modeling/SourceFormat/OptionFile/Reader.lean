import SourceFormat.OptionFile.Basic

/-!
# Reading an option file back

The reader goes through the text line by line.  A line that begins with `# ` is a comment, an empty
line is skipped, and any other line is an option: its name is what stands before the first `=`,
without the blanks that pad it, and its value is what stands after it, without the one blank that
belongs to the record.

The reader knows nothing of how a file is written, which is what makes it the measure for
`OptionFile.render`.
-/

namespace SourceFormat.OptionFile

/-- Cut a text at every `\n`; the piece behind the last one is a line only if it is not empty. -/
def rawLines (current : List Char) : List Char → List (List Char)
  | [] => if current.isEmpty then [] else [current.reverse]
  | c :: rest =>
    if c = '\n' then current.reverse :: rawLines [] rest else rawLines (c :: current) rest

/-- Drop the blanks at the end. -/
def dropPadding (cs : List Char) : List Char :=
  (cs.reverse.dropWhile (· = ' ')).reverse

/-- Drop exactly one blank at the beginning. -/
def dropOneBlank : List Char → List Char
  | ' ' :: rest => rest
  | cs => cs

/-- What one line of an option file says. -/
inductive Line where
  | blank
  | comment (text : List Char)
  | option (name value : List Char)
  deriving Repr, DecidableEq

/-- Classify a line. -/
def Line.ofChars : List Char → Line
  | [] => .blank
  | '#' :: ' ' :: text => .comment text
  | cs =>
    .option (dropPadding (cs.takeWhile (· ≠ '='))) (dropOneBlank ((cs.dropWhile (· ≠ '=')).drop 1))

/-- The comment lines and the options of a text, each in the order in which they stand there. -/
def read (text : String) : List String × List OptionRecord :=
  let found := (rawLines [] text.toList).map Line.ofChars
  (found.filterMap fun l => match l with
    | .comment t => some (String.ofList t)
    | _ => none,
   found.filterMap fun l => match l with
    | .option name value => some ⟨String.ofList name, String.ofList value⟩
    | _ => none)

end SourceFormat.OptionFile
