/-!
# Lines

A comment handed to an option file may hold line breaks of either kind.  `lines` cuts a text into
the lines that are written: a line ends at `\n` or at `\r\n`, the break is not part of it, a text
that ends in a break has no empty last line, and a carriage return on its own is an ordinary
character.
-/

namespace SourceFormat.Text

/-- Drop one trailing carriage return. -/
def dropReturn (line : List Char) : List Char :=
  if line.getLast? = some '\r' then line.dropLast else line

/-- Cut at every `\n`.  `current` is the line being read, latest character first. -/
def cutLines (current : List Char) : List Char → List (List Char)
  | [] => if current.isEmpty then [] else [current.reverse]
  | c :: rest =>
    if c = '\n' then dropReturn current.reverse :: cutLines [] rest
    else cutLines (c :: current) rest

/-- The lines of a text, without their breaks. -/
def lines (s : String) : List String :=
  (cutLines [] s.toList).map String.ofList

end SourceFormat.Text
