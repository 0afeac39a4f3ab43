import SourceFormat.Text.Digit

/-!
# The formatter's version

The formatter names itself, and its version, somewhere in the output of a version request:
`Uncrustify`, perhaps `_d` for a debug build, `-`, three runs of decimal digits with points between
them, and perhaps `_` and a letter.  The first place where such a name stands is the only one that
counts: if its runs are no 32-bit numbers in ASCII digits, the output has no version, whatever
stands further on.
-/

namespace SourceFormat.Formatter

/-- The characters of the product's name. -/
def productName : List Char := "Uncrustify".toList

/-- A version name as it stands in a text, cut into its parts. -/
structure VersionName where
  debug : Bool
  major : List Char
  minor : List Char
  patch : List Char
  suffix : Option Char
  deriving Repr, DecidableEq

namespace VersionName

/-- The characters of a version name. -/
def chars (v : VersionName) : List Char :=
  productName ++ (if v.debug then ['_', 'd'] else []) ++ ['-'] ++ v.major ++ ['.'] ++ v.minor
    ++ ['.'] ++ v.patch
    ++ match v.suffix with
      | none => []
      | some c => ['_', c]

/-- Take an expected beginning off a text. -/
def strip? : List Char → List Char → Option (List Char)
  | [], cs => some cs
  | e :: expected, c :: cs => if e = c then strip? expected cs else none
  | _ :: _, [] => none

/-- Take a longest run of decimal digits off a text; there must be at least one. -/
def digits? (cs : List Char) : Option (List Char × List Char) :=
  let run := cs.takeWhile Text.isDigit
  if run.isEmpty then none else some (run, cs.dropWhile Text.isDigit)

/-- Whether a character may follow the `_` of a suffix. -/
def isSuffixLetter (c : Char) : Bool := 'a' ≤ c && c ≤ 'z'

/-- The debug mark and what stands behind it. -/
def debugMark (cs : List Char) : Bool × List Char :=
  match cs with
  | '_' :: 'd' :: rest => (true, rest)
  | _ => (false, cs)

/-- The suffix, if what stands there is a whole one. -/
def suffixOf (cs : List Char) : Option Char :=
  match cs with
  | '_' :: c :: _ => if isSuffixLetter c then some c else none
  | _ => none

/-- The version name at the very beginning of a text. -/
def atStart? (cs : List Char) : Option VersionName := do
  let cs ← strip? productName cs
  let (debug, cs) := debugMark cs
  let cs ← strip? ['-'] cs
  let (major, cs) ← digits? cs
  let cs ← strip? ['.'] cs
  let (minor, cs) ← digits? cs
  let cs ← strip? ['.'] cs
  let (patch, cs) ← digits? cs
  return { debug, major, minor, patch, suffix := suffixOf cs }

/-- The leftmost version name in a text. -/
def find? : List Char → Option VersionName
  | [] => atStart? []
  | c :: cs => (atStart? (c :: cs)).orElse fun _ => find? cs

end VersionName

/-- A version of the formatter. -/
structure Version where
  /-- The name as it was written. -/
  full : String
  major : UInt32
  minor : UInt32
  patch : UInt32
  debug : Bool
  suffix : Option Char
  deriving Repr, DecidableEq

namespace Version

/-- The 32-bit number that a run of ASCII digits spells. -/
def word? (cs : List Char) : Option UInt32 :=
  (Text.number? cs).bind fun n => if n < UInt32.size then some (UInt32.ofNat n) else none

/-- The version that a version name spells, if its numbers are 32-bit numbers. -/
def ofName? (v : VersionName) : Option Version := do
  return { full := String.ofList v.chars
           major := ← word? v.major
           minor := ← word? v.minor
           patch := ← word? v.patch
           debug := v.debug
           suffix := v.suffix }

/-- The version in the output of a version request. -/
def parse? (output : String) : Option Version :=
  (VersionName.find? output.toList).bind ofName?

/-- The three numbers, with points between them. -/
def numbers (v : Version) : String :=
  toString v.major.toNat ++ "." ++ toString v.minor.toNat ++ "." ++ toString v.patch.toNat

/-- The text of a version is the name as it was written. -/
def text (v : Version) : String := v.full

end Version

end SourceFormat.Formatter
