import SourceFormat.Toml.Lexical

/-!
# Reading a TOML document

`Document.parse?` reads a whole document into its root table.  Values nest at most 80 deep, which is
also what bounds the recursion: `value?` is given the depth that is left, and the loops over the
members of an array or a table are given the number of characters that are left.

The document is a sequence of lines.  The state between two of them is the tables written so far and
the header that the next assignments belong to.
-/

namespace SourceFormat.Toml

/-- How deep arrays and inline tables may nest. -/
def maxDepth : Nat := 80

/-- The members of an array behind its opening bracket, and the place behind its closing one.
`item` reads a value. -/
def arrayItems (item : Reader Item) : Nat → List Item → Reader (List Item)
  | 0, _, _ => none
  | fuel + 1, found, p =>
    match dropFiller false p with
    | ']' :: rest => some (found.reverse, rest)
    | p =>
      match item p with
      | none => none
      | some (i, rest) =>
        match dropFiller false rest with
        | ',' :: rest => arrayItems item fuel (i :: found) rest
        | ']' :: rest => some ((i :: found).reverse, rest)
        | _ => none

/-- A key, the `=` behind it, and the value behind that. -/
def assignment? (item : Reader Item) (p : Place) : Option ((List Key × Key × Item) × Place) :=
  match key? (p.length + 1) p with
  | some ((path, last), '=' :: rest) =>
    (item (dropSpace rest)).map fun (i, rest) => ((path, last, i), rest)
  | _ => none

/-- The members of an inline table behind its opening brace, and the place behind its closing one.
-/
def inlineEntries (item : Reader Item) : Nat → Entries → Reader Entries
  | 0, _, _ => none
  | fuel + 1, es, p =>
    match dropFiller false p with
    | '\x7d' :: rest => some (es, rest)
    | p =>
      match assignment? item p with
      | none => none
      | some ((path, last, i), rest) =>
        match es.assign path last i with
        | none => none
        | some es =>
          match dropFiller false rest with
          | ',' :: rest => inlineEntries item fuel es rest
          | '\x7d' :: rest => some (es, rest)
          | _ => none

/-- A value.  Brackets and braces are opened only while there is depth left. -/
def value? : Nat → Reader Item
  | depth, p =>
    match p with
    | [] => none
    | '[' :: rest =>
      match depth with
      | 0 => none
      | depth + 1 =>
        (arrayItems (value? depth) (rest.length + 1) [] rest).map fun (items, behind) =>
          (.array ⟨p, behind⟩ false items, behind)
    | '\x7b' :: rest =>
      match depth with
      | 0 => none
      | depth + 1 =>
        (inlineEntries (value? depth) (rest.length + 1) [] rest).map fun (es, behind) =>
          (.table ⟨p, behind⟩ .inline es, behind)
    | c :: _ =>
      if c = '"' ∨ c = '\'' then
        (string? p).map fun (text, behind) =>
          (.scalar ⟨p, behind⟩ (.string (String.ofList text)), behind)
      else
        let (cs, behind) := token p
        (scalar? cs).map fun s => (.scalar ⟨p, behind⟩ s, behind)

/-- The tables written so far, and the header in force. -/
structure Progress where
  root : Entries := []
  header : List Key := []

/-- A header in single or double brackets, and the place behind it. -/
def header? (p : Place) : Option ((Bool × List Key × Key) × Place) :=
  match p with
  | '[' :: '[' :: rest =>
    match key? (rest.length + 1) rest with
    | some ((path, last), ']' :: ']' :: rest) => some ((true, path, last), rest)
    | _ => none
  | '[' :: rest =>
    match key? (rest.length + 1) rest with
    | some ((path, last), ']' :: rest) => some ((false, path, last), rest)
    | _ => none
  | _ => none

/-- One line that says something: a header or an assignment. -/
def statement? (s : Progress) (p : Place) : Option (Progress × Place) :=
  match p with
  | '[' :: _ => do
    let ((element, path, last), behind) ← header? p
    let span : Span := ⟨p, behind⟩
    let root ←
      if element then s.root.openElement span path last else s.root.openTable span path last
    return ({ root, header := path ++ [last] }, behind)
  | _ => do
    let ((path, last, item), behind) ← assignment? (value? maxDepth) p
    let root ← Entries.inside s.header (Entries.assign path last item) s.root
    return ({ s with root }, behind)

/-- The lines of a document.  `fuel` bounds their number. -/
def statements : Nat → Progress → Place → Option Entries
  | 0, _, _ => none
  | fuel + 1, s, p =>
    let p := dropSpace p
    match p with
    | [] => some s.root
    | _ =>
      match finishLine? p with
      | some rest => statements fuel s rest
      | none => do
        let (s, p) ← statement? s p
        statements fuel s (← finishLine? p)

/-- The root table of a document.  A byte order mark at its beginning is skipped. -/
def parse? (document : String) : Option Entries :=
  let p := document.toList
  let body := match p with
    | '\uFEFF' :: rest => rest
    | p => p
  statements (body.length + 1) {} body

end SourceFormat.Toml
