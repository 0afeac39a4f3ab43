import SourceFormat.Text.Quoted
import SourceFormat.Text.Utf8
import SourceFormat.Toml.Value

/-!
# Complaints about a document

A document can be TOML and still not be what its reader wants.  A `Complaint` says what is wrong,
and a `Diagnostic` says where: its text shows the line with the place underlined.

The mark begins under the first character of the stretch and is as wide as the stretch in bytes, but
never wider than the line in bytes, and at least one column.
-/

namespace SourceFormat.Toml

/-- What a reader may want of a value. -/
inductive Want where
  | boolean
  | word32
  | signed32
  | word64
  | path
  /-- A group of fields, by its name. -/
  | group (name : String)
  deriving Repr, DecidableEq

/-- The spelling of a want. -/
def Want.text : Want → String
  | boolean => "a boolean"
  | word32 => "u32"
  | signed32 => "i32"
  | word64 => "u64"
  | path => "path string"
  | group name => "struct " ++ name

/-- What is there instead. -/
inductive Found where
  | integer (i : Int)
  /-- An integer of more than 64 bits. -/
  | wideInteger (i : Int)
  | float (f : Binary64)
  | boolean (b : Bool)
  | string (s : String)
  | sequence
  | map
  deriving Repr, DecidableEq

/-- The spelling of what is there. -/
def Found.text : Found → String
  | integer i => "integer `" ++ toString i ++ "`"
  | wideInteger i => "integer `" ++ toString i ++ "` as i128"
  | float f => "floating point `" ++ f.text ++ "`"
  | boolean b => "boolean `" ++ (if b then "true" else "false") ++ "`"
  | string s => "string " ++ Text.quote s
  | sequence => "sequence"
  | map => "map"

/-- What is wrong. -/
inductive Complaint where
  /-- A key that is none of the fields. -/
  | unknownField (key : String) (fields : List String)
  /-- A field that has no stock value is not there. -/
  | missingField (name : String)
  /-- A value of another kind. -/
  | wrongType (found : Found) (want : Want)
  /-- A number that does not fit. -/
  | wrongValue (found : Found) (want : Want)
  deriving Repr, DecidableEq

/-- A name between grave accents. -/
def accented (s : String) : String := "`" ++ s ++ "`"

/-- The text of a complaint. -/
def Complaint.text : Complaint → String
  | unknownField key fields =>
    "unknown field " ++ accented key ++ ", expected one of "
      ++ String.intercalate ", " (fields.map accented)
  | missingField name => "missing field " ++ accented name
  | wrongType found want => "invalid type: " ++ found.text ++ ", expected " ++ want.text
  | wrongValue found want => "invalid value: " ++ found.text ++ ", expected " ++ want.text

/-- A complaint and the stretch of the document that it is about. -/
structure Diagnostic where
  span : Span
  complaint : Complaint
  deriving Repr, DecidableEq

/-- How many bytes a list of characters takes. -/
def byteLength (cs : List Char) : Nat :=
  (cs.map Char.utf8Size).foldl (· + ·) 0

/-- Where a place is in its document: how many lines are before it, and the characters of its own
line before it. -/
def position (document : List Char) (p : Place) : Nat × List Char :=
  let before := document.take (document.length - p.length)
  ((before.filter (· = '\n')).length, (before.reverse.takeWhile (· ≠ '\n')).reverse)

/-- The text of a diagnostic, with the line it is about and a mark below the stretch. -/
def Diagnostic.render (document : String) (d : Diagnostic) : String :=
  let chars := document.toList
  let (linesBefore, before) := position chars d.span.start
  let line := before ++ d.span.start.takeWhile (· ≠ '\n')
  let number := toString (linesBefore + 1)
  let gutter := String.ofList (List.replicate (number.length + 1) ' ')
  let width := byteLength d.span.start - byteLength d.span.stop
  let carets := max 1 (min width (byteLength line - before.length))
  "TOML parse error at line " ++ number ++ ", column " ++ toString (before.length + 1) ++ "\n"
    ++ gutter ++ "|\n"
    ++ number ++ " | " ++ String.ofList line ++ "\n"
    ++ gutter ++ "| " ++ String.ofList (List.replicate before.length ' ')
    ++ String.ofList (List.replicate carets '^') ++ "\n"
    ++ d.complaint.text ++ "\n"

end SourceFormat.Toml
