import SourceFormat.Toml.Value

/-!
# Writing TOML strings

A string has up to four written forms, and the plainest that can hold it is taken: between double
quotes if nothing in it needs an escape, between single quotes if that avoids one, between three
double or three single quotes if that avoids one, and with escapes if nothing avoids them.  Only the
forms between double quotes know escapes.
-/

namespace SourceFormat.Toml

/-- A control character. -/
def isControl (c : Char) : Bool := c < ' ' || c = '\x7F'

/-- A control that every form on one line has to escape or to leave to another form. -/
def needsLine (c : Char) : Bool := isControl c && c ≠ '\t'

/-- A control that the forms in several lines have to escape or to leave to another form. -/
def needsEscape (c : Char) : Bool := isControl c && c ≠ '\t' && c ≠ '\n'

/-- Whether three characters `q` follow one another. -/
def hasTriple (q : Char) : List Char → Bool
  | a :: b :: c :: rest => (a = q && b = q && c = q) || hasTriple q (b :: c :: rest)
  | _ => false

/-- The written forms. -/
inductive StringForm where
  | basic
  | literal
  | basicLines
  | literalLines
  deriving Repr, DecidableEq

/-- A character of a string that is never looked at twice. -/
def isSimple (c : Char) : Bool :=
  c.isAlphanum || c = '_' || c = '.' || c = '/' || c = ' ' || c = ':' || c = '-'

/-- The form in which a string is written. -/
def StringForm.choose (cs : List Char) : StringForm :=
  if cs.all isSimple then basic
  else if cs.all fun c => c ≠ '"' && c ≠ '\\' && !needsLine c then basic
  else if cs.all fun c => c ≠ '\'' && !needsLine c then literal
  else if (cs.all fun c => c ≠ '\\' && !needsEscape c) && !hasTriple '"' cs then basicLines
  else if (cs.all fun c => !needsEscape c) && !hasTriple '\'' cs then literalLines
  else if cs.contains '\n' then basicLines
  else basic

/-- A digit of an escape. -/
def upperHexDigit (n : Nat) : Char :=
  if n < 10 then Char.ofNat ('0'.toNat + n) else Char.ofNat ('A'.toNat + (n - 10))

/-- The escape of a control or a backslash. -/
def escape (c : Char) : List Char :=
  if c = '\x08' then ['\\', 'b']
  else if c = '\t' then ['\\', 't']
  else if c = '\n' then ['\\', 'n']
  else if c = '\x0C' then ['\\', 'f']
  else if c = '\r' then ['\\', 'r']
  else if c = '\\' then ['\\', '\\']
  else if c = '"' then ['\\', '"']
  else ['\\', 'u', '0', '0', upperHexDigit (c.toNat / 16), upperHexDigit (c.toNat % 16)]

/-- The body of the form between double quotes. -/
def basicBody (cs : List Char) : List Char :=
  cs.flatMap fun c => if c = '"' || c = '\\' || isControl c then escape c else [c]

/-- The body of the form between three double quotes.  Line ends stand as they are, and of a run of
quotes every third one is escaped; `run` counts the quotes since the last character that was none.
-/
def basicLinesBody (run : Nat) : List Char → List Char
  | [] => []
  | c :: rest =>
    if c = '"' then
      (if run = 2 then escape c ++ basicLinesBody 0 rest else c :: basicLinesBody (run + 1) rest)
    else if c = '\n' then c :: basicLinesBody 0 rest
    else if c = '\\' || isControl c then escape c ++ basicLinesBody 0 rest
    else c :: basicLinesBody 0 rest

/-- The line end behind the opening quotes of a string in several lines; a reader drops it. -/
def firstBreak (cs : List Char) : List Char :=
  if cs.contains '\n' then ['\n'] else []

/-- A string in a given form. -/
def StringForm.write (form : StringForm) (cs : List Char) : List Char :=
  match form with
  | basic => ['"'] ++ basicBody cs ++ ['"']
  | literal => ['\''] ++ cs ++ ['\'']
  | basicLines => ['"', '"', '"'] ++ firstBreak cs ++ basicLinesBody 0 cs ++ ['"', '"', '"']
  | literalLines => ['\'', '\'', '\''] ++ firstBreak cs ++ cs ++ ['\'', '\'', '\'']

/-- A string as it is written. -/
def writeString (s : String) : String :=
  String.ofList ((StringForm.choose s.toList).write s.toList)

end SourceFormat.Toml
