import SourceFormat.Text.Digit
import SourceFormat.Toml.Value

/-!
# The lexical level of TOML

White space, line ends, comments, keys, strings, numbers and dates.  A reader takes a place and
answers with what it read and the place behind it, or with nothing: what is wrong with a document
that is not TOML is never reported, only that it is none.

Strings are read one character at a time by a small machine whose state says how the next character
is to be taken, so that reading is a recursion on the document itself.
-/

namespace SourceFormat.Toml

/-- Something that reads at a place. -/
abbrev Reader (α : Type) := Place → Option (α × Place)

/-- White space inside a line. -/
def isSpace (c : Char) : Bool := c = ' ' || c = '\t'

/-- Drop white space inside a line. -/
def dropSpace (p : Place) : Place := p.dropWhile isSpace

/-- The place behind a line end, if there is one here. -/
def lineEnd? : Place → Option Place
  | '\n' :: rest => some rest
  | '\r' :: '\n' :: rest => some rest
  | _ => none

/-- A character that may stand as itself in a comment, in a literal string and, delimiters and
backslash apart, in a basic one: anything but a control other than the tab. -/
def isPlain (c : Char) : Bool := c = '\t' || (' ' ≤ c && c ≠ '\x7F')

/-- The place behind a comment, if there is one here; else this place. -/
def dropComment : Place → Place
  | '#' :: rest => rest.dropWhile isPlain
  | p => p

/-- The place behind white space, a comment and a line end, or at the end of the document. -/
def finishLine? (p : Place) : Option Place :=
  match dropComment (dropSpace p) with
  | [] => some []
  | p => lineEnd? p

/-- What may stand between the values of an array: white space, line ends and comments.  A comment
is closed by its line end. -/
def dropFiller (inComment : Bool) : Place → Place
  | [] => []
  | '\n' :: rest => dropFiller false rest
  | '\r' :: '\n' :: rest => dropFiller false rest
  | c :: rest =>
    if inComment then (if isPlain c then dropFiller true rest else c :: rest)
    else if isSpace c then dropFiller false rest
    else if c = '#' then dropFiller true rest
    else c :: rest

/-! ## Strings -/

/-- The value of a hexadecimal digit. -/
def hexValue? (c : Char) : Option Nat :=
  if '0' ≤ c ∧ c ≤ '9' then some (c.toNat - '0'.toNat)
  else if 'a' ≤ c ∧ c ≤ 'f' then some (c.toNat - 'a'.toNat + 10)
  else if 'A' ≤ c ∧ c ≤ 'F' then some (c.toNat - 'A'.toNat + 10)
  else none

/-- The characters that a backslash and one character spell. -/
def shortEscape? : Char → Option Char
  | 'b' => some '\x08'
  | 't' => some '\t'
  | 'n' => some '\n'
  | 'f' => some '\x0C'
  | 'r' => some '\r'
  | 'e' => some '\x1B'
  | '"' => some '"'
  | '\\' => some '\\'
  | _ => none

/-- How many hexadecimal digits follow a backslash and this character. -/
def hexEscapeLength? : Char → Option Nat
  | 'x' => some 2
  | 'u' => some 4
  | 'U' => some 8
  | _ => none

/-- The character of a scalar value. -/
def scalarChar? (n : Nat) : Option Char :=
  if n < 0xD800 ∨ (0xDFFF < n ∧ n < 0x110000) then some (Char.ofNat n) else none

/-- How the next character of a basic string is to be taken. -/
inductive EscapeState where
  /-- As itself, or as the beginning of an escape. -/
  | plain
  /-- As the second character of an escape. -/
  | escape
  /-- As one of `left` more hexadecimal digits behind the digits that spell `value`. -/
  | hex (left : Nat) (value : Nat)
  /-- In several lines only: as white space that a backslash at the end of a line swallows;
  `broken` once the line end has been met. -/
  | fold (broken : Bool)
  /-- In several lines only: as the second half of a line end, kept if `keep`. -/
  | return (keep : Bool)
  deriving Repr, DecidableEq

/-- One character inside an escape: the state behind it and the character that was completed. -/
def stepEscape (st : EscapeState) (c : Char) : Option (EscapeState × Option Char) :=
  match st with
  | .escape =>
    match shortEscape? c with
    | some d => some (.plain, some d)
    | none => (hexEscapeLength? c).map fun n => (.hex n 0, none)
  | .hex left value =>
    (hexValue? c).bind fun v =>
      let value := value * 16 + v
      if left ≤ 1 then (scalarChar? value).map fun d => (.plain, some d)
      else some (.hex (left - 1) value, none)
  | _ => none

/-- The rest of a basic string on one line, behind its opening quote. -/
def basicString (st : EscapeState) (found : List Char) : Reader (List Char)
  | [] => none
  | c :: rest =>
    match st with
    | .plain =>
      if c = '"' then some (found.reverse, rest)
      else if c = '\\' then basicString .escape found rest
      else if isPlain c then basicString .plain (c :: found) rest
      else none
    | st =>
      match stepEscape st c with
      | none => none
      | some (st, none) => basicString st found rest
      | some (st, some d) => basicString st (d :: found) rest

/-- The rest of a literal string on one line, behind its opening quote. -/
def literalString (found : List Char) : Reader (List Char)
  | [] => none
  | c :: rest =>
    if c = '\'' then some (found.reverse, rest)
    else if isPlain c then literalString (c :: found) rest
    else none

/-- The closing quotes of a string in several lines: three of them, of which up to two more belong
to the string.  Answers with the quotes that belong to the string. -/
def closing? (quote : Char) (p : Place) : Option (List Char × Place) :=
  let run := (p.takeWhile (· = quote)).length
  if run < 3 then none
  else some (List.replicate (min (run - 3) 2) quote, p.drop (min run 5))

/-- Take one character of a string in several lines that stands outside escapes and is no closing
quote: the state behind it and the characters found so far. -/
def stepLines (found : List Char) (c : Char) : Option (EscapeState × List Char) :=
  if c = '\\' then some (.escape, found)
  else if c = '\r' then some (.return true, found)
  else if c = '\n' ∨ isPlain c then some (.plain, c :: found)
  else none

/-- The rest of a basic string in several lines, behind its opening quotes. -/
def basicLines (st : EscapeState) (found : List Char) : Reader (List Char)
  | [] => none
  | c :: rest =>
    match st with
    | .return keep =>
      if c ≠ '\n' then none
      else if keep then basicLines .plain ('\n' :: '\r' :: found) rest
      else basicLines (.fold true) found rest
    | .fold broken =>
      if isSpace c then basicLines (.fold broken) found rest
      else if c = '\n' then basicLines (.fold true) found rest
      else if c = '\r' then basicLines (.return false) found rest
      else if !broken then none
      else
        match closing? '"' (c :: rest) with
        | some (quotes, behind) => some (found.reverse ++ quotes, behind)
        | none =>
          match stepLines found c with
          | none => none
          | some (st, found) => basicLines st found rest
    | .escape =>
      if isSpace c then basicLines (.fold false) found rest
      else if c = '\n' then basicLines (.fold true) found rest
      else if c = '\r' then basicLines (.return false) found rest
      else
        match stepEscape .escape c with
        | none => none
        | some (st, none) => basicLines st found rest
        | some (st, some d) => basicLines st (d :: found) rest
    | .hex left value =>
      match stepEscape (.hex left value) c with
      | none => none
      | some (st, none) => basicLines st found rest
      | some (st, some d) => basicLines st (d :: found) rest
    | .plain =>
      match closing? '"' (c :: rest) with
      | some (quotes, behind) => some (found.reverse ++ quotes, behind)
      | none =>
        match stepLines found c with
        | none => none
        | some (st, found) => basicLines st found rest

/-- The rest of a literal string in several lines, behind its opening quotes.  `afterReturn` holds
behind a carriage return, which must be followed by the other half of its line end. -/
def literalLines (afterReturn : Bool) (found : List Char) : Reader (List Char)
  | [] => none
  | c :: rest =>
    if afterReturn then
      (if c = '\n' then literalLines false ('\n' :: '\r' :: found) rest else none)
    else
      match closing? '\'' (c :: rest) with
      | some (quotes, behind) => some (found.reverse ++ quotes, behind)
      | none =>
        if c = '\r' then literalLines true found rest
        else if c = '\n' ∨ isPlain c then literalLines false (c :: found) rest
        else none

/-- The place behind a line end that directly follows the opening quotes of a string in several
lines: it is not part of the string. -/
def dropFirstBreak (p : Place) : Place :=
  (lineEnd? p).getD p

/-- A string on one line. -/
def shortString? : Reader (List Char)
  | '"' :: rest => basicString .plain [] rest
  | '\'' :: rest => literalString [] rest
  | _ => none

/-- A string of any kind. -/
def string? : Reader (List Char)
  | '"' :: '"' :: '"' :: rest => basicLines .plain [] (dropFirstBreak rest)
  | '\'' :: '\'' :: '\'' :: rest => literalLines false [] (dropFirstBreak rest)
  | p => shortString? p

/-! ## Keys -/

/-- A character of a key without quotes. -/
def isKeyChar (c : Char) : Bool :=
  c.isAlphanum || c = '_' || c = '-'

/-- One segment of a key. -/
def keySegment? (p : Place) : Option (Key × Place) :=
  let bare := p.takeWhile isKeyChar
  if bare.isEmpty then
    (shortString? p).map fun (text, rest) => (⟨String.ofList text, ⟨p, rest⟩⟩, rest)
  else
    let rest := p.dropWhile isKeyChar
    some (⟨String.ofList bare, ⟨p, rest⟩⟩, rest)

/-- A key of one segment or several: the segments before the last one, and the last one.  The place
is the one behind it and the white space that follows.  `fuel` bounds the number of segments. -/
def key? : Nat → Reader (List Key × Key)
  | 0, _ => none
  | fuel + 1, p =>
    match keySegment? (dropSpace p) with
    | none => none
    | some (segment, rest) =>
      match dropSpace rest with
      | '.' :: rest =>
        (key? fuel rest).map fun ((path, last), rest) => ((segment :: path, last), rest)
      | rest => some (([], segment), rest)

/-! ## Numbers, booleans and moments -/

/-- Digits with single underscores between them, taken out. -/
def digitGroups? (isDigit : Char → Bool) : List Char → Option (List Char)
  | [] => none
  | [c] => if isDigit c then some [c] else none
  | c :: '_' :: rest =>
    if isDigit c then (digitGroups? isDigit rest).map (c :: ·) else none
  | c :: rest => if isDigit c then (digitGroups? isDigit rest).map (c :: ·) else none

/-- A digit of the decimal notation. -/
def isDecimal (c : Char) : Bool := '0' ≤ c && c ≤ '9'

/-- The number that digits spell to a base. -/
def ofDigits (base : Nat) (cs : List Char) : Nat :=
  cs.foldl (fun n c => n * base + (hexValue? c).getD 0) 0

/-- A sign and what stands behind it. -/
def sign : List Char → Bool × List Char
  | '-' :: cs => (true, cs)
  | '+' :: cs => (false, cs)
  | cs => (false, cs)

/-- The whole part of a decimal number, without leading zeros. -/
def wholePart? (cs : List Char) : Option (List Char) :=
  match cs with
  | '0' :: _ :: _ => none
  | _ => digitGroups? isDecimal cs

/-- The first integer that is too large for 128 bits with a sign. -/
def integerBound : Int := 170141183460469231731687303715884105728

/-- The range of integers that a document may hold: 128 bits with a sign. -/
def inRange (i : Int) : Bool := -integerBound ≤ i && i < integerBound

/-- An integer in decimal notation, or without a sign in one of the others. -/
def integer? (token : List Char) : Option Int :=
  let read : Option Int :=
    match token with
    | '0' :: 'x' :: cs =>
      (digitGroups? (fun c => (hexValue? c).isSome) cs).map fun ds => (ofDigits 16 ds : Int)
    | '0' :: 'o' :: cs =>
      (digitGroups? (fun c => '0' ≤ c && c ≤ '7') cs).map fun ds => (ofDigits 8 ds : Int)
    | '0' :: 'b' :: cs =>
      (digitGroups? (fun c => c = '0' || c = '1') cs).map fun ds => (ofDigits 2 ds : Int)
    | _ =>
      let (negative, cs) := sign token
      (wholePart? cs).map fun ds =>
        if negative then -(ofDigits 10 ds : Int) else (ofDigits 10 ds : Int)
  read.bind fun i => if inRange i then some i else none

/-- A floating point number: a whole part with a fraction, an exponent or both, or one of the names
of infinity and of the value that is no number. -/
def float? (token : List Char) : Option Binary64 :=
  let (negative, cs) := sign token
  if cs = "inf".toList then some (.infinite negative)
  else if cs = "nan".toList then some .notANumber
  else
    let isMark := fun c : Char => c = 'e' || c = 'E'
    let significand := cs.takeWhile fun c => !isMark c
    let exponentPart := cs.dropWhile fun c => !isMark c
    let whole := significand.takeWhile (· ≠ '.')
    let fractionPart := significand.dropWhile (· ≠ '.')
    if exponentPart.isEmpty ∧ fractionPart.isEmpty then none
    else do
      let whole ← wholePart? whole
      let fraction ← match fractionPart with
        | [] => some []
        | _ :: ds => digitGroups? isDecimal ds
      let exponent ← match exponentPart with
        | [] => some (0 : Int)
        | _ :: ds =>
          let (negative, ds) := sign ds
          (digitGroups? isDecimal ds).map fun ds =>
            if negative then -(ofDigits 10 ds : Int) else (ofDigits 10 ds : Int)
      Binary64.ofDecimal? negative (ofDigits 10 (whole ++ fraction)) (exponent - fraction.length)

/-- Two decimal digits. -/
def twoDigits? : Reader Nat
  | a :: b :: rest => if isDecimal a ∧ isDecimal b then some (ofDigits 10 [a, b], rest) else none
  | _ => none

/-- How many days a month has. -/
def daysIn (year month : Nat) : Nat :=
  if month = 2 then (if year % 4 = 0 ∧ (year % 100 ≠ 0 ∨ year % 400 = 0) then 29 else 28)
  else if month ∈ [4, 6, 9, 11] then 30 else 31

/-- The place behind a calendar date. -/
def dropDate? (p : Place) : Option Place := do
  let (century, p) ← twoDigits? p
  let (year, p) ← twoDigits? p
  let ('-', p) ← p.head?.map (·, p.drop 1) | none
  let (month, p) ← twoDigits? p
  let ('-', p) ← p.head?.map (·, p.drop 1) | none
  let (day, p) ← twoDigits? p
  if 1 ≤ month ∧ month ≤ 12 ∧ 1 ≤ day ∧ day ≤ daysIn (century * 100 + year) month then some p
  else none

/-- The place behind a fraction of a second, if there is one here. -/
def dropFraction? (p : Place) : Option Place :=
  match p with
  | '.' :: p => if (p.takeWhile isDecimal).isEmpty then none else some (p.dropWhile isDecimal)
  | p => some p

/-- The place behind a time of day.  The seconds may be left out. -/
def dropTime? (p : Place) : Option Place := do
  let (hour, p) ← twoDigits? p
  let (':', p) ← p.head?.map (·, p.drop 1) | none
  let (minute, p) ← twoDigits? p
  if 23 < hour ∨ 59 < minute then none
  else
    match p with
    | ':' :: p => do
      let (second, p) ← twoDigits? p
      if 60 < second then none else dropFraction? p
    | p => some p

/-- The place behind an offset from universal time, if there is one here. -/
def dropOffset? (p : Place) : Option Place :=
  match p with
  | 'Z' :: p => some p
  | 'z' :: p => some p
  | c :: p =>
    if c = '+' ∨ c = '-' then do
      let (hour, p) ← twoDigits? p
      let (':', p) ← p.head?.map (·, p.drop 1) | none
      let (minute, p) ← twoDigits? p
      if 59 < minute ∨ 24 * 60 < hour * 60 + minute then none else some p
    else some (c :: p)
  | [] => some []

/-- Whether a token is a date, a time, or a date with a time. -/
def isMoment (token : List Char) : Bool :=
  match dropDate? token with
  | some [] => true
  | some (c :: rest) =>
    (c = 'T' || c = 't' || c = ' ') && (dropTime? rest).bind dropOffset? = some []
  | none => dropTime? token = some []

/-- A character of a value that is neither quoted nor bracketed. -/
def isTokenChar (c : Char) : Bool :=
  c.isAlphanum || c = '_' || c = '-' || c = '+' || c = '.' || c = ':'

/-- The token at a place.  A date reaches over one blank to the time behind it. -/
def token (p : Place) : List Char × Place :=
  let first := p.takeWhile isTokenChar
  let rest := p.dropWhile isTokenChar
  match rest with
  | ' ' :: c :: more =>
    if dropDate? first = some [] ∧ isDecimal c then
      (first ++ ' ' :: (c :: more).takeWhile isTokenChar, (c :: more).dropWhile isTokenChar)
    else (first, rest)
  | _ => (first, rest)

/-- The scalar that a token spells. -/
def scalar? (cs : List Char) : Option Scalar :=
  if cs = "true".toList then some (.boolean true)
  else if cs = "false".toList then some (.boolean false)
  else
    match integer? cs with
    | some i => some (.integer i)
    | none =>
      match float? cs with
      | some f => some (.float f)
      | none => if isMoment cs then some .moment else none

end SourceFormat.Toml
