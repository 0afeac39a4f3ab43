import SourceFormat.Shell.Expansion
import SourceFormat.Shell.Utility.Test

/-!
# Calculating with arguments

`expr` takes an expression as separate arguments, prints its value and succeeds if that is neither
empty nor zero.
-/

namespace SourceFormat.Shell.Utility

/-- Whether a value counts as false. -/
def isNull (v : Octets) : Bool := v.isEmpty || integer? v = some 0

/-- The binary operators of `expr` by how tightly they bind, loosest first. -/
def exprLevel (o : Octets) : Option Nat :=
  match String.ofList o with
  | "|" => some 1
  | "&" => some 2
  | "=" | "==" | "!=" | "<" | "<=" | ">" | ">=" => some 3
  | "+" | "-" => some 4
  | "*" | "/" | "%" => some 5
  | ":" => some 6
  | _ => none

/-- A match at the beginning of a text: the first group, or how many characters match. -/
def matchValue (a b : Octets) : Option Octets := do
  let r ← Regex.parse? false b
  match Regex.run (8 * a.length + 1000) r { behind := [], ahead := a } some with
  | some q =>
    match q.groups.find? (·.1 = 1) with
    | some (_, text) => some text
    | none => some (octets (toString q.taken))
  | none => some (if b.contains '(' then [] else ['0'])

/-- The value of a binary operation; none if it has none. -/
def exprBinary (o a b : Octets) : Option Octets :=
  let number := fun (n : Int) => some (octets (toString n))
  let truth := fun (p : Bool) => some (if p then ['1'] else ['0'])
  let numbers := (integer? a).bind fun x => (integer? b).map fun y => (x, y)
  match String.ofList o with
  | "|" => some (if isNull a then (if isNull b then ['0'] else b) else a)
  | "&" => some (if isNull a || isNull b then ['0'] else a)
  | ":" => matchValue a b
  | "+" => numbers.bind fun (x, y) => number (x + y)
  | "-" => numbers.bind fun (x, y) => number (x - y)
  | "*" => numbers.bind fun (x, y) => number (x * y)
  | "/" => numbers.bind fun (x, y) => if y = 0 then none else number (x.tdiv y)
  | "%" => numbers.bind fun (x, y) => if y = 0 then none else number (x.tmod y)
  | o =>
    let order := match numbers with
      | some (x, y) => compare x y
      | none => compare (String.ofList a) (String.ofList b)
    match o with
    | "=" | "==" => truth (order = .eq)
    | "!=" => truth (order ≠ .eq)
    | "<" => truth (order = .lt)
    | "<=" => truth (order ≠ .gt)
    | ">" => truth (order = .gt)
    | ">=" => truth (order ≠ .lt)
    | _ => none

mutual

/-- Operations that bind at least as tightly as a level. -/
def exprClimb : Nat → Nat → List Octets → Option (Octets × List Octets)
  | 0, _, _ => none
  | fuel + 1, least, args => do
    let (a, rest) ← exprOperand fuel args
    exprRest fuel least a rest

/-- The operators behind an operand. -/
def exprRest : Nat → Nat → Octets → List Octets → Option (Octets × List Octets)
  | 0, _, _, _ => none
  | fuel + 1, least, a, args =>
    match args with
    | o :: rest =>
      match exprLevel o with
      | some l =>
        if least ≤ l then do
          let (b, rest) ← exprClimb fuel (l + 1) rest
          let v ← exprBinary o a b
          exprRest fuel least v rest
        else some (a, args)
      | none => some (a, args)
    | [] => some (a, [])

/-- An operand. -/
def exprOperand : Nat → List Octets → Option (Octets × List Octets)
  | 0, _ => none
  | fuel + 1, args =>
    match args with
    | ['('] :: rest => do
      let (v, rest) ← exprClimb fuel 1 rest
      match rest with
      | [')'] :: rest => some (v, rest)
      | _ => none
    | op :: a :: rest =>
      if op = octets "length" then some (octets (toString a.length), rest)
      else some (op, a :: rest)
    | [a] => some (a, [])
    | [] => none

end

/-- Calculate. -/
def expr (args : List Octets) : Act Nat := do
  match exprClimb (8 * args.length + 8) 1 args with
  | some (v, []) =>
    let _ ← say (v ++ ['\n'])
    return if isNull v then 1 else 0
  | _ =>
    complain (octets "expr: syntax error")
    return 2

/-- A duration in milliseconds: a decimal number with an optional unit. -/
def durationOf (cs : Octets) : Option Nat :=
  let whole := cs.takeWhile Char.isDigit
  let rest := cs.drop whole.length
  let (fraction, rest) := match rest with
    | '.' :: rest => (rest.takeWhile Char.isDigit, rest.dropWhile Char.isDigit)
    | rest => ([], rest)
  let millis := decimal whole * 1000 + decimal ((fraction ++ ['0', '0', '0']).take 3)
  if whole.isEmpty && fraction.isEmpty then
    if cs = octets "infinity" then some 1000000000000 else none
  else
    match rest with
    | [] => some millis
    | ['s'] => some millis
    | ['m'] => some (millis * 60)
    | ['h'] => some (millis * 3600)
    | ['d'] => some (millis * 86400)
    | _ => none

/-- Sleep for the sum of some durations. -/
def sleep (args : List Octets) : Act Nat := do
  match args.mapM durationOf with
  | some (d :: ds) =>
    pause (ds.foldl (· + ·) d)
    return 0
  | some [] =>
    complain (octets "sleep: missing operand")
    return 1
  | none =>
    complain (octets "sleep: invalid time interval")
    return 1

/-- Print variables that are handed on to programs. -/
def printenv (args : List Octets) : Act Nat := do
  let s ← getShell
  let shared := s.exported.filterMap fun name => (lookup? s name).map fun v => (name, v)
  match args with
  | [] =>
    let _ ← say (shared.flatMap fun (name, v) => name ++ '=' :: v ++ ['\n'])
    return 0
  | _ =>
    let mut status := 0
    for a in args do
      match shared.find? (·.1 = a) with
      | some (_, v) =>
        let _ ← say (v ++ ['\n'])
      | none => status := 1
    return status

end SourceFormat.Shell.Utility
