import SourceFormat.Text.Lines

/-!
# Option files

The formatter reads its preferences from an option file: comment lines first, then one
`name = value` record per option, each followed by an empty line.  An `OptionFile` is such a file
in memory, and `OptionFile.render` is its text.

The two lists are kept apart on purpose: however comments and options were added, every comment
stands before every option, and a comment's line breaks can never start a record, because each of
its lines is written behind `# `.
-/

namespace SourceFormat

/-- One preference, by the formatter's name for it, with the text of its value. -/
structure OptionRecord where
  name : String
  value : String
  deriving Repr, DecidableEq, Inhabited

/-- An option file in memory, comments and options each in the order in which they were added. -/
structure OptionFile where
  comments : List String := []
  options : List OptionRecord := []
  deriving Repr, DecidableEq, Inhabited

namespace OptionFile

/-- The column at which the `=` of a record stands, if the name leaves room for it. -/
def assignColumn : Nat := 32

/-- The file with neither comments nor options. -/
def empty : OptionFile := {}

/-- Add a comment after those already there. -/
def pushComment (f : OptionFile) (text : String) : OptionFile :=
  { f with comments := f.comments ++ [text] }

/-- Add an option after those already there. -/
def push (f : OptionFile) (name value : String) : OptionFile :=
  { f with options := f.options ++ [⟨name, value⟩] }

/-- The value of the first option of that name. -/
def get? (f : OptionFile) (name : String) : Option String :=
  (f.options.find? (·.name = name)).map (·.value)

/-- The blanks that bring the `=` to its column; none if the name reaches it. -/
def padding (name : String) : String :=
  String.ofList (List.replicate (assignColumn - name.length) ' ')

/-- One record and the empty line behind it. -/
def renderOption (r : OptionRecord) : String :=
  r.name ++ padding r.name ++ "= " ++ r.value ++ "\n" ++ "\n"

/-- One comment, each of its lines behind `# `. -/
def renderComment (text : String) : String :=
  String.join ((Text.lines text).map fun line => "# " ++ line ++ "\n")

/-- One thing that is written: a comment or an option. -/
inductive Entry where
  | comment (text : String)
  | option (record : OptionRecord)
  deriving Repr, DecidableEq

/-- The text of an entry. -/
def Entry.text : Entry → String
  | comment text => renderComment text
  | option record => renderOption record

/-- The entries of the file in the order in which they are written. -/
def entries (f : OptionFile) : List Entry :=
  f.comments.map .comment ++ f.options.map .option

/-- The text of the file. -/
def render (f : OptionFile) : String :=
  String.join (f.entries.map Entry.text)

/-- A file is shown as its text. -/
instance : ToString OptionFile := ⟨render⟩

end OptionFile

end SourceFormat
