import SourceFormat.Number.Binary64

/-!
# Values of a TOML document

A document is a table: keys with values, where a value is a scalar, an array or a table again.
Every key and every value remembers where it was written (`Span`), so that a complaint about it can
show the place; a table also remembers how it came about (`Origin`), because TOML lets a table be
extended only in the way in which it was begun.

A place in a document is the text from there to the end.
-/

namespace SourceFormat.Toml

/-- A place in a document: all that follows it. -/
abbrev Place := List Char

/-- A stretch of a document. -/
structure Span where
  start : Place
  stop : Place
  deriving Repr, DecidableEq

/-- A value that holds no others. -/
inductive Scalar where
  | string (s : String)
  | integer (i : Int)
  | float (f : Binary64)
  | boolean (b : Bool)
  /-- A date, a time or both.  Nothing here reads one. -/
  | moment
  deriving Repr, DecidableEq

/-- How a table came about. -/
inductive Origin where
  /-- Named by a header of its own. -/
  | header
  /-- Named in the middle of a header. -/
  | implied
  /-- Named in the middle of a dotted key. -/
  | dotted
  /-- Written between braces. -/
  | inline
  deriving Repr, DecidableEq

/-- One segment of a key. -/
structure Key where
  text : String
  span : Span
  deriving Repr, DecidableEq

/-- A value and where it was written. -/
inductive Item where
  | scalar (span : Span) (value : Scalar)
  /-- An array; `ofTables` if it was begun by a header in double brackets. -/
  | array (span : Span) (ofTables : Bool) (items : List Item)
  /-- A table, its keys in the order in which they were written. -/
  | table (span : Span) (origin : Origin) (entries : List (Key × Item))
  deriving Repr

/-- The contents of a table. -/
abbrev Entries := List (Key × Item)

/-- Where a value was written. -/
def Item.span : Item → Span
  | .scalar span _ => span
  | .array span _ _ => span
  | .table span _ _ => span

/-! ## Building tables

The three operations below are all that a document can do to the tables it has written so far.  Each
answers `none` if TOML forbids it: a key that is there already, a table that is extended in another
way than it was begun, a value that is no table where one is needed. -/

namespace Entries

/-- The value of a key. -/
def get? (es : Entries) (key : String) : Option Item :=
  (es.find? (·.1.text = key)).map (·.2)

/-- Put a value in the place of the one that a key has. -/
def replace (es : Entries) (key : Key) (item : Item) : Entries :=
  es.map fun e => if e.1.text = key.text then (key, item) else e

/-- Change the value of a key, leaving the key as it was written first. -/
def modify (es : Entries) (key : String) (item : Item) : Entries :=
  es.map fun e => if e.1.text = key then (e.1, item) else e

/-- Work inside the value of a key that a header passes through: in the table, or in the last table
of an array of tables. -/
def within (item : Item) (work : Entries → Option Entries) : Option Item :=
  match item with
  | .table span origin entries =>
    if origin = .inline then none else (work entries).map (.table span origin)
  | .array span true items =>
    match items.reverse with
    | .table tspan origin entries :: before =>
      (work entries).map fun es => .array span true ((.table tspan origin es :: before).reverse)
    | _ => none
  | _ => none

/-- Assign a value to a dotted key: `path` are the segments before the last one, `last`.  A table
that the path passes through may not have a header of its own, and the table that takes the value
must have been begun by a dotted key. -/
def assign : List Key → Key → Item → Entries → Option Entries
  | [], last, item, es =>
    if (es.get? last.text).isSome then none else some (es ++ [(last, item)])
  | k :: path, last, item, es =>
    match es.get? k.text with
    | none => (assign path last item []).map fun inner => es ++ [(k, .table k.span .dotted inner)]
    | some (.table span origin inner) =>
      if origin = .dotted ∨ (origin = .implied ∧ path ≠ []) then
        (assign path last item inner).map fun inner => es.modify k.text (.table span origin inner)
      else none
    | some found =>
      if path = [] then none
      else (within found (assign path last item)).map (es.modify k.text)

/-- Begin the table of a header.  A table that was only implied so far takes the header as its own.
-/
def openTable (span : Span) : List Key → Key → Entries → Option Entries
  | [], last, es =>
    match es.get? last.text with
    | none => some (es ++ [(last, .table span .header [])])
    | some (.table _ .implied inner) => some (es.replace last (.table span .header inner))
    | some _ => none
  | k :: path, last, es =>
    match es.get? k.text with
    | none =>
      (openTable span path last []).map fun inner => es ++ [(k, .table k.span .implied inner)]
    | some found => (within found (openTable span path last)).map (es.modify k.text)

/-- Begin a further table of an array of tables. -/
def openElement (span : Span) : List Key → Key → Entries → Option Entries
  | [], last, es =>
    match es.get? last.text with
    | none => some (es ++ [(last, .array span true [.table span .header []])])
    | some (.array aspan true items) =>
      some (es.modify last.text (.array aspan true (items ++ [.table span .header []])))
    | some _ => none
  | k :: path, last, es =>
    match es.get? k.text with
    | none =>
      (openElement span path last []).map fun inner => es ++ [(k, .table k.span .implied inner)]
    | some found => (within found (openElement span path last)).map (es.modify k.text)

/-- Work inside the table that the latest header opened. -/
def inside : List Key → (Entries → Option Entries) → Entries → Option Entries
  | [], work, es => work es
  | k :: path, work, es =>
    match es.get? k.text with
    | none => none
    | some found => (within found (inside path work)).map (es.modify k.text)

end Entries

end SourceFormat.Toml
