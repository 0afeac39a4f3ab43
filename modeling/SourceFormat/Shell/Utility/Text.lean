import SourceFormat.Shell.Action

/-!
# Utilities that print their arguments

`echo` prints its arguments with blanks between them, `printf` prints them through a format that is
used again and again until no argument is left.  Both know escapes.
-/

namespace SourceFormat.Shell.Utility

/-- The value of an octal digit. -/
def octalValue? (c : Char) : Option Nat :=
  if '0' ≤ c ∧ c ≤ '7' then some (c.toNat - '0'.toNat) else none

/-- An octal number of at most so many digits, and what follows. -/
def octal (most : Nat) (cs : Octets) : Nat × Octets :=
  let ds := (cs.take most).takeWhile fun c => (octalValue? c).isSome
  (ds.foldl (fun n c => n * 8 + (octalValue? c).getD 0) 0, cs.drop ds.length)

/-- The character that a backslash and another character stand for. -/
def shortEscape? : Char → Option Char
  | 'a' => some '\x07'
  | 'b' => some '\x08'
  | 'f' => some '\x0C'
  | 'n' => some '\n'
  | 'r' => some '\r'
  | 't' => some '\t'
  | 'v' => some '\x0B'
  | '\\' => some '\\'
  | _ => none

/-- A byte. -/
def byteChar (n : Nat) : Char := Char.ofNat (n % 256)

/-- A text with its escapes replaced, as `echo` takes it; the flag says that `\c` asked to stop. -/
def unescape : Nat → Octets → Octets × Bool
  | 0, _ => ([], false)
  | fuel + 1, cs =>
    match cs with
    | [] => ([], false)
    | '\\' :: 'c' :: _ => ([], true)
    | '\\' :: '0' :: rest =>
      let (n, rest) := octal 3 rest
      let (more, halt) := unescape fuel rest
      (byteChar n :: more, halt)
    | '\\' :: c :: rest =>
      match shortEscape? c with
      | some d =>
        let (more, halt) := unescape fuel rest
        (d :: more, halt)
      | none =>
        if (octalValue? c).isSome then
          let (n, rest) := octal 3 (c :: rest)
          let (more, halt) := unescape fuel rest
          (byteChar n :: more, halt)
        else
          let (more, halt) := unescape fuel rest
          ('\\' :: c :: more, halt)
    | c :: rest =>
      let (more, halt) := unescape fuel rest
      (c :: more, halt)

/-- Put blanks between words. -/
def unwords (ws : List Octets) : Octets :=
  match ws with
  | [] => []
  | w :: ws => w ++ ws.flatMap (' ' :: ·)

/-- Print the arguments; `-n` leaves out the line end. -/
def echo (args : List Octets) : Act Nat := do
  let (args, lineEnd) := match args with
    | ['-', 'n'] :: rest => (rest, false)
    | args => (args, true)
  let text := unwords args
  let (text, halt) := if text.contains '\\' then unescape (text.length + 1) text else (text, false)
  let ok ← say (if lineEnd && !halt then text ++ ['\n'] else text)
  return if ok then 0 else 1

/-! ## Formats -/

/-- A place in a format where an argument goes. -/
structure Directive where
  left : Bool := false
  zero : Bool := false
  plus : Bool := false
  blank : Bool := false
  alternate : Bool := false
  width : Nat := 0
  precision : Option Nat := none
  kind : Char

/-- A piece of a format. -/
inductive Piece where
  | literal (cs : Octets)
  | argument (d : Directive)

/-- The flags at the beginning of a directive. -/
def flags (d : Directive) : Octets → Directive × Octets
  | '-' :: cs => flags { d with left := true } cs
  | '0' :: cs => flags { d with zero := true } cs
  | '+' :: cs => flags { d with plus := true } cs
  | ' ' :: cs => flags { d with blank := true } cs
  | '#' :: cs => flags { d with alternate := true } cs
  | cs => (d, cs)

/-- The decimal number that characters spell. -/
def decimal (cs : Octets) : Nat := ((String.ofList cs).toNat?).getD 0

/-- The directive behind a percent sign. -/
def directive (cs : Octets) : Directive × Octets :=
  let (d, cs) := flags { kind := 's' } cs
  let width := cs.takeWhile Char.isDigit
  let cs := cs.drop width.length
  let (precision, cs) := match cs with
    | '.' :: cs =>
      let p := cs.takeWhile Char.isDigit
      (some (decimal p), cs.drop p.length)
    | cs => (none, cs)
  let d := { d with width := decimal width, precision }
  match cs with
  | k :: cs => ({ d with kind := k }, cs)
  | [] => (d, [])

/-- The pieces of a format. -/
def pieces : Nat → Octets → List Piece
  | 0, _ => []
  | fuel + 1, cs =>
    match cs with
    | [] => []
    | '%' :: '%' :: rest => .literal ['%'] :: pieces fuel rest
    | '%' :: rest =>
      let (d, rest) := directive rest
      .argument d :: pieces fuel rest
    | '\\' :: '"' :: rest => .literal ['"'] :: pieces fuel rest
    | '\\' :: c :: rest =>
      match shortEscape? c with
      | some d => .literal [d] :: pieces fuel rest
      | none =>
        if (octalValue? c).isSome then
          let (n, rest) := octal 3 (c :: rest)
          .literal [byteChar n] :: pieces fuel rest
        else .literal ['\\', c] :: pieces fuel rest
    | c :: rest =>
      let run := rest.takeWhile fun c => c ≠ '%' && c ≠ '\\'
      .literal (c :: run) :: pieces fuel (rest.drop run.length)

/-- A number as an argument spells it: decimal, octal or hexadecimal, or a character behind a quote.
The flag says whether all of it was a number. -/
def numberOf (cs : Octets) : Int × Bool :=
  match cs with
  | [] => (0, true)
  | '"' :: c :: _ => (c.toNat, true)
  | '\'' :: c :: _ => (c.toNat, true)
  | _ =>
    let cs := cs.dropWhile fun c => c = ' ' || c = '\t'
    let (negative, cs) := match cs with
      | '-' :: cs => (true, cs)
      | '+' :: cs => (false, cs)
      | cs => (false, cs)
    let (value, rest) : Nat × Octets := match cs with
      | '0' :: 'x' :: ds =>
        let run := ds.takeWhile fun c => c.isDigit || ('a' ≤ c && c ≤ 'f') || ('A' ≤ c && c ≤ 'F')
        let digit := fun c : Char =>
          if c.isDigit then c.toNat - 48 else if 'a' ≤ c then c.toNat - 87 else c.toNat - 55
        (run.foldl (fun n c => n * 16 + digit c) 0, ds.drop run.length)
      | '0' :: ds =>
        let (n, rest) := octal ds.length ds
        (n, rest)
      | ds =>
        let run := ds.takeWhile Char.isDigit
        (decimal run, if run.isEmpty then 'x' :: ds else ds.drop run.length)
    (if negative then -(value : Int) else value, rest.isEmpty)

/-- Fill up to a width. -/
def fill (d : Directive) (zeroOk : Bool) (sign cs : Octets) : Octets :=
  let missing := d.width - (sign.length + cs.length)
  if d.left then sign ++ cs ++ List.replicate missing ' '
  else if d.zero && zeroOk then sign ++ List.replicate missing '0' ++ cs
  else List.replicate missing ' ' ++ sign ++ cs

/-- The digits of a number to a base, at least as many as the precision asks for. -/
def digitsOf (d : Directive) (base : Nat) (n : Nat) : Octets :=
  let ds := Nat.toDigits base n
  List.replicate ((d.precision.getD 0) - ds.length) '0' ++ ds

/-- One argument through one directive, and whether it was what the directive wants. -/
def formatOne (d : Directive) (arg : Octets) : Octets × Bool × Bool :=
  let plain := fun (cs : Octets) =>
    fill d false [] (match d.precision with
      | some p => cs.take p
      | none => cs)
  if d.kind = 's' then (plain arg, true, false)
  else if d.kind = 'b' then
    let (cs, halt) := unescape (arg.length + 1) arg
    (plain cs, true, halt)
  else if d.kind = 'c' then (fill d false [] (arg.take 1), true, false)
  else
    let (value, ok) := numberOf arg
    if d.kind = 'd' ∨ d.kind = 'i' then
      let sign :=
        if value < 0 then ['-'] else if d.plus then ['+'] else if d.blank then [' '] else []
      (fill d d.precision.isNone sign (digitsOf d 10 value.natAbs), ok, false)
    else
      let n := (value % (UInt64.size : Int)).toNat
      let base := if d.kind = 'o' then 8 else if d.kind = 'u' then 10 else 16
      let ds := digitsOf d base n
      let ds := if d.kind = 'X' then ds.map Char.toUpper else ds
      let sign := if d.alternate ∧ d.kind = 'x' ∧ n ≠ 0 then ['0', 'x']
        else if d.alternate ∧ d.kind = 'X' ∧ n ≠ 0 then ['0', 'X']
        else if d.alternate ∧ d.kind = 'o' ∧ n ≠ 0 then ['0'] else []
      (fill d d.precision.isNone sign ds, ok, false)

/-- One pass through a format: what it prints, the arguments left, the ones that were no numbers,
and whether `\c` asked to stop. -/
def formatPass : List Piece → List Octets → Octets × List Octets × List Octets × Bool
  | [], args => ([], args, [], false)
  | .literal cs :: ps, args =>
    let (more, args, bad, halt) := formatPass ps args
    (cs ++ more, args, bad, halt)
  | .argument d :: ps, args =>
    let arg := args.headD []
    let (cs, ok, halt) := formatOne d arg
    if halt then (cs, [], [], true)
    else
      let (more, rest, bad, halt) := formatPass ps (args.drop 1)
      (cs ++ more, rest, if ok then bad else arg :: bad, halt)

/-- Whether a piece takes an argument. -/
def Piece.takes : Piece → Bool
  | literal _ => false
  | argument _ => true

/-- Passes through a format until no argument is left. -/
def formatAll (ps : List Piece) : Nat → List Octets → List Octets → Octets × List Octets
  | 0, _, _ => ([], [])
  | fuel + 1, args, _ =>
    let (cs, rest, bad, halt) := formatPass ps args
    if halt || rest.isEmpty || !(ps.any Piece.takes) then (cs, bad)
    else
      let (more, worse) := formatAll ps fuel rest []
      (cs ++ more, bad ++ worse)

/-- Print arguments through a format. -/
def printf (args : List Octets) : Act Nat := do
  let args := match args with
    | ['-', '-'] :: rest => rest
    | args => args
  match args with
  | [] =>
    grumble (octets "printf: usage: printf format [arg ...]")
    return 2
  | format :: rest =>
    let (cs, bad) := formatAll (pieces (format.length + 1) format) (rest.length + 1) rest []
    let ok ← say cs
    for b in bad do
      grumble (octets "printf: " ++ b ++ octets ": expected numeric value")
    return if ok && bad.isEmpty then 0 else 1

end SourceFormat.Shell.Utility
