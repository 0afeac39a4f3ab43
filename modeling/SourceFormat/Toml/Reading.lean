import SourceFormat.Path
import SourceFormat.Toml.Complaint
import SourceFormat.Toml.Document

/-!
# Reading typed values out of a document

A group of fields is read from a table, key by key in the order of the keys' bytes, whatever order
they were written in; the first complaint ends the reading.  A key that is none of the fields is a
complaint, a field that is not there keeps the value it has.  A group may also be written as an
array: its members are then the fields in their order, and members beyond the last field are not
looked at.

Integers are read into the width that is wanted and never wrapped: one that fits 64 bits but not the
wanted width is of the right type and has a wrong value, a wider one has a wrong type.
-/

namespace SourceFormat.Toml

/-- The number of values of a word of 32 bits. -/
def words32 : Int := 4294967296

/-- The number of values of a word of 64 bits. -/
def words64 : Int := 18446744073709551616

/-- What is there, in the words of a complaint. -/
def Scalar.found : Scalar → Found
  | .string s => .string s
  | .integer i => if -(words64 / 2) ≤ i ∧ i < words64 then .integer i else .wideInteger i
  | .float f => .float f
  | .boolean b => .boolean b
  | .moment => .map

/-- What is there, in the words of a complaint. -/
def Item.found : Item → Found
  | .scalar _ s => s.found
  | .array _ _ _ => .sequence
  | .table _ _ _ => .map

/-- The complaint that a value is of another kind. -/
def Item.refuse {α : Type} (item : Item) (want : Want) : Except Diagnostic α :=
  .error ⟨item.span, .wrongType item.found want⟩

/-- A truth value. -/
def Item.bool (item : Item) : Except Diagnostic Bool :=
  match item with
  | .scalar _ (.boolean b) => .ok b
  | _ => item.refuse .boolean

/-- An integer between two bounds. -/
def Item.bounded (item : Item) (want : Want) (low high : Int) : Except Diagnostic Int :=
  match item with
  | .scalar span (.integer i) =>
    if low ≤ i ∧ i ≤ high then .ok i
    else
      match (Scalar.integer i).found with
      | .integer i => .error ⟨span, .wrongValue (.integer i) want⟩
      | found => .error ⟨span, .wrongType found want⟩
  | _ => item.refuse want

/-- A count of 32 bits. -/
def Item.word32 (item : Item) : Except Diagnostic UInt32 :=
  (item.bounded .word32 0 (words32 - 1)).map fun i => UInt32.ofNat i.toNat

/-- A signed number of 32 bits. -/
def Item.signed32 (item : Item) : Except Diagnostic Int32 :=
  (item.bounded .signed32 (-(words32 / 2)) (words32 / 2 - 1)).map Int32.ofInt

/-- A count of 64 bits. -/
def Item.word64 (item : Item) : Except Diagnostic UInt64 :=
  (item.bounded .word64 0 (words64 - 1)).map fun i => UInt64.ofNat i.toNat

/-- A path, written as a string. -/
def Item.path (item : Item) : Except Diagnostic Path :=
  match item with
  | .scalar _ (.string s) => .ok (Path.ofString s)
  | _ => item.refuse .path

/-- A field of a group: its key, and what its value does to the group. -/
structure GroupField (σ : Type) where
  name : String
  read : Item → σ → Except Diagnostic σ

/-- The names of fields, in their order. -/
def GroupField.names {σ : Type} (fields : List (GroupField σ)) : List String :=
  fields.map (·.name)

/-- Read one key of a group. -/
def readEntry {σ : Type} (fields : List (GroupField σ)) (group : σ) (entry : Key × Item) :
    Except Diagnostic σ :=
  match fields.find? (·.name = entry.1.text) with
  | some field => field.read entry.2 group
  | none => .error ⟨entry.1.span, .unknownField entry.1.text (GroupField.names fields)⟩

/-- The keys of a table in the order in which they are read. -/
def inKeyOrder (es : Entries) : Entries :=
  es.mergeSort fun a b => decide (a.1.text ≤ b.1.text)

/-- Read a group from the keys of a table. -/
def readEntries {σ : Type} (fields : List (GroupField σ)) (stock : σ) (es : Entries) :
    Except Diagnostic σ :=
  (inKeyOrder es).foldlM (readEntry fields) stock

/-- Read a group from the members of an array. -/
def readMembers {σ : Type} (fields : List (GroupField σ)) (stock : σ) (items : List Item) :
    Except Diagnostic σ :=
  (fields.zip items).foldlM (fun group (field, item) => field.read item group) stock

/-- The one key of a date or time, for a reader that wants a group. -/
def momentKey : String := "$__toml_private_datetime"

/-- Read a group from a value. -/
def readGroup {σ : Type} (name : String) (fields : List (GroupField σ)) (stock : σ) (item : Item) :
    Except Diagnostic σ :=
  match item with
  | .table _ _ es => readEntries fields stock es
  | .array _ _ items => readMembers fields stock items
  | .scalar span .moment => .error ⟨span, .unknownField momentKey (GroupField.names fields)⟩
  | item => item.refuse (.group name)

/-- Why a document could not be read. -/
inductive ReadError where
  /-- It is not TOML. -/
  | notToml
  /-- It is TOML, but not what is wanted. -/
  | unfit (d : Diagnostic)
  deriving Repr, DecidableEq

/-- The text of a failure to read the document. -/
def ReadError.render (document : String) : ReadError → String
  | notToml => "TOML parse error\n"
  | unfit d => d.render document

/-- Read a whole document as a group of fields. -/
def readDocument {σ : Type} (fields : List (GroupField σ)) (stock : σ) (document : String) :
    Except ReadError (Entries × σ) :=
  match parse? document with
  | none => .error .notToml
  | some es =>
    match readEntries fields stock es with
    | .error d => .error (.unfit d)
    | .ok group => .ok (es, group)

end SourceFormat.Toml
