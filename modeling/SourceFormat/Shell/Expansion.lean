import SourceFormat.Shell.Action
import SourceFormat.Shell.Pattern

/-!
# From words to fields

When a command is run its words become fields.  Each part of a word gives fragments: characters that
stay together, the value of something that was not quoted, which is cut at the separators, or the
arguments, one field each.  Characters keep whether they were quoted, because only unquoted ones can
make a field a pattern for the names of files.
-/

namespace SourceFormat.Shell

/-- Characters, each with whether it is quoted. -/
abbrev Marked := List (Char × Bool)

/-- Characters with one mark. -/
def mark (quoted : Bool) (cs : Octets) : Marked := cs.map fun c => (c, quoted)

/-- Characters without their marks. -/
def unmark (m : Marked) : Octets := m.map fun (c, _) => c

/-- What a part of a word gives. -/
inductive Fragment where
  /-- These stay together. -/
  | kept (m : Marked)
  /-- These are cut at separators. -/
  | loose (cs : Octets)
  /-- One field for each; the first and the last join with what stands beside them. -/
  | each (words : List Octets) (quoted : Bool)

/-- The separators between fields. -/
def separators (s : Shell) : Octets := (lookup? s (octets "IFS")).getD [' ', '\t', '\n']

/-- Whether a separator is a blank, of which several count as one. -/
def isBlankSeparator (c : Char) : Bool := c = ' ' || c = '\t' || c = '\n'

/-- Cutting: the fields so far, latest first, the characters of the current one, latest first, and
whether a blank has just ended a field. -/
structure Cutting where
  fields : List Marked := []
  current : Option Marked := none
  soft : Bool := false

namespace Cutting

/-- Add characters that stay together. -/
def keep (x : Cutting) (m : Marked) : Cutting :=
  { x with current := some (m.reverse ++ x.current.getD []), soft := false }

/-- End the current field, if there is one. -/
def cut (x : Cutting) (soft : Bool) : Cutting :=
  match x.current with
  | some m => { fields := m.reverse :: x.fields, current := none, soft }
  | none => { x with soft := x.soft || soft }

/-- Add a character that may be a separator. -/
def add (ifs : Octets) (x : Cutting) (c : Char) : Cutting :=
  if ifs.contains c then
    if isBlankSeparator c then (if x.current.isSome then x.cut true else x)
    else if x.current.isSome then x.cut false
    else if x.soft then { x with soft := false }
    else { x with fields := [] :: x.fields }
  else { x with current := some ((c, false) :: x.current.getD []), soft := false }

/-- Add several words, a field each. -/
def addEach (ifs : Octets) (quoted : Bool) : List Octets → Cutting → Cutting
  | [], x => x
  | [w], x => if quoted then x.keep (mark true w) else w.foldl (add ifs) x
  | w :: ws, x =>
    let x := if quoted then x.keep (mark true w) else w.foldl (add ifs) x
    addEach ifs quoted ws (x.cut false)

/-- Add a fragment. -/
def fragment (ifs : Octets) (x : Cutting) : Fragment → Cutting
  | .kept m => x.keep m
  | .loose cs => cs.foldl (add ifs) x
  | .each ws quoted => addEach ifs quoted ws x

end Cutting

/-- Whether fragments hold nothing but arguments of which there are none. -/
def holdsNothing (fs : List Fragment) : Bool :=
  (fs.any fun
    | .each [] true => true
    | _ => false)
  && fs.all fun
    | .kept m => m.isEmpty
    | .loose cs => cs.isEmpty
    | .each ws _ => ws.isEmpty

/-- The fields of a word. -/
def fieldsOf (ifs : Octets) (fs : List Fragment) : List Marked :=
  if holdsNothing fs then []
  else ((fs.foldl (Cutting.fragment ifs) {}).cut false).fields.reverse

/-- The first separator, which joins the arguments to one word. -/
def joint (ifs : Octets) : Octets := ifs.take 1

/-- Join words. -/
def joinWords (between : Octets) : List Octets → Octets
  | [] => []
  | w :: ws => w ++ ws.flatMap (between ++ ·)

/-- Fragments as one word that is not cut. -/
def wholeWord (fs : List Fragment) : Marked :=
  fs.flatMap fun
    | .kept m => m
    | .loose cs => mark false cs
    | .each ws quoted => mark quoted (joinWords [' '] ws)

/-- Fragments as they count outside quotes: literal characters are cut as well. -/
def loosened (fs : List Fragment) : List Fragment :=
  fs.map fun
    | .kept m => if !m.isEmpty && m.all (!·.2) then .loose (unmark m) else .kept m
    | f => f

/-! ## Names of files -/

/-- Cut a marked word at its slashes. -/
def cutAtSlashes (m : Marked) : List Marked :=
  let (found, current) := m.foldl
    (fun (found, current) c =>
      if c.1 = '/' then (current.reverse :: found, []) else (found, c :: current))
    (([], []) : List Marked × Marked)
  (current.reverse :: found).reverse

/-- The paths below those found so far that fit the rest of a pattern. -/
def globFrom (t : FileTree) : List Marked → List Octets → List Octets
  | [], found => found
  | piece :: rest, found =>
    let longer := found.flatMap fun base =>
      let path := fun (name : Octets) => base ++ name ++ (if rest.isEmpty then [] else ['/'])
      if piece.isEmpty then [path []]
      else if Glob.isPattern piece then
        match t.find (pathOf (if base.isEmpty then ['.'] else base)) with
        | .ok (at_, .directory) =>
          let gs := Glob.ofChars piece
          let names := ((t.names at_).map ofBytes).filter fun name =>
            Glob.fits gs name && (name.head? ≠ some '.' || (unmark piece).head? = some '.')
          (names.mergeSort fun a b => decide (String.ofList a ≤ String.ofList b)).map path
        | _ => []
      else
        let longer := path (unmark piece)
        if t.existsAt (pathOf longer) then [longer] else []
    globFrom t rest longer

/-- The names that a field stands for: those it fits as a pattern, or else itself. -/
def globbed (t : FileTree) (m : Marked) : List Octets :=
  if Glob.isPattern m then
    match globFrom t (cutAtSlashes m) [[]] with
    | [] => [unmark m]
    | found => found
  else [unmark m]

/-! ## Arithmetic -/

namespace Arithmetic

/-- A token of an expression. -/
inductive Token where
  | number (n : Int)
  | name (cs : Octets)
  | op (cs : Octets)
  deriving Repr, DecidableEq

/-- The operators, longer ones first. -/
def operators : List Octets :=
  ["<<=", ">>=", "<<", ">>", "<=", ">=", "==", "!=", "&&", "||", "+=", "-=", "*=", "/=", "%=",
   "&=", "|=", "^=", "+", "-", "*", "/", "%", "<", ">", "=", "!", "~", "&", "|", "^", "(", ")",
   "?", ":", ","].map String.toList

/-- A number to a base. -/
def digits (base : Nat) (cs : Octets) : Option Int :=
  cs.foldl (fun n c => do
    let n ← n
    let d := if c.isDigit then c.toNat - 48 else (c.toLower.toNat - 97) + 10
    if d < base then some (n * base + d) else none) (some 0)

/-- The value of a text that is a constant. -/
def constant? (cs : Octets) : Option Int :=
  match cs with
  | [] => none
  | '0' :: 'x' :: ds => if ds.isEmpty then none else digits 16 ds
  | '0' :: 'X' :: ds => if ds.isEmpty then none else digits 16 ds
  | '0' :: ds => digits 8 ds
  | ds => digits 10 ds

/-- The tokens of an expression. -/
def tokens : Nat → Octets → Option (List Token)
  | 0, _ => none
  | fuel + 1, cs =>
    match cs with
    | [] => some []
    | c :: rest =>
      if c = ' ' || c = '\t' || c = '\n' then tokens fuel rest
      else if c.isDigit then do
        let ds := cs.takeWhile Char.isAlphanum
        let n ← constant? ds
        (tokens fuel (cs.drop ds.length)).map (.number n :: ·)
      else if c.isAlpha || c = '_' then
        let name := cs.takeWhile fun c => c.isAlphanum || c = '_'
        (tokens fuel (cs.drop name.length)).map (.name name :: ·)
      else
        match operators.find? (·.isPrefixOf cs) with
        | some o => (tokens fuel (cs.drop o.length)).map (.op o :: ·)
        | none => none

/-- The binary operators by how tightly they bind, loosest first. -/
def level (o : Octets) : Option Nat :=
  match String.ofList o with
  | "||" => some 1
  | "&&" => some 2
  | "|" => some 3
  | "^" => some 4
  | "&" => some 5
  | "==" | "!=" => some 6
  | "<" | ">" | "<=" | ">=" => some 7
  | "<<" | ">>" => some 8
  | "+" | "-" => some 9
  | "*" | "/" | "%" => some 10
  | _ => none

/-- A number as 64 bits hold it. -/
def wrap (n : Int) : Int := Int.bmod n UInt64.size

/-- A bitwise operation. -/
def bitwise (f : Nat → Nat → Nat) (a b : Int) : Int :=
  wrap (f (a % (UInt64.size : Int)).toNat (b % (UInt64.size : Int)).toNat)

/-- The value of a binary operation; none for a division by zero. -/
def binary (o : Octets) (a b : Int) : Option Int :=
  let truth := fun (p : Bool) => some (if p then 1 else 0)
  match String.ofList o with
  | "||" => truth (a ≠ 0 || b ≠ 0)
  | "&&" => truth (a ≠ 0 && b ≠ 0)
  | "|" => some (bitwise (· ||| ·) a b)
  | "^" => some (bitwise (· ^^^ ·) a b)
  | "&" => some (bitwise (· &&& ·) a b)
  | "==" => truth (a = b)
  | "!=" => truth (a ≠ b)
  | "<" => truth (a < b)
  | ">" => truth (b < a)
  | "<=" => truth (a ≤ b)
  | ">=" => truth (b ≤ a)
  | "<<" => some (wrap (a * Nat.pow 2 (b % 64).toNat))
  | ">>" => some (a / Nat.pow 2 (b % 64).toNat)
  | "+" => some (wrap (a + b))
  | "-" => some (wrap (a - b))
  | "*" => some (wrap (a * b))
  | "/" => if b = 0 then none else some (wrap (a.tdiv b))
  | "%" => if b = 0 then none else some (a.tmod b)
  | _ => none

/-- The variables, as far as an expression has set them, and where to look up the others. -/
abbrev Store := List (Octets × Int)

/-- The value of a variable; one that is not set is zero. -/
def look (get : Octets → Option Octets) (st : Store) (name : Octets) : Option Int :=
  match st.find? (·.1 = name) with
  | some (_, n) => some n
  | none =>
    match get name with
    | none => some 0
    | some v =>
      let v := (v.dropWhile (· = ' '))
      match v with
      | [] => some 0
      | '-' :: ds => (constant? ds).map (- ·)
      | ds => constant? ds

mutual

/-- An expression, assignments and alternatives included. -/
def expression (get : Octets → Option Octets) : Nat → Store → List Token →
    Option (Int × Store × List Token)
  | 0, _, _ => none
  | fuel + 1, st, ts =>
    match ts with
    | .name x :: .op o :: rest =>
      if o = ['='] then do
        let (v, st, rest) ← expression get fuel st rest
        some (v, (x, v) :: st, rest)
      else if o.getLast? = some '=' ∧ (level o).isNone ∧ 1 < o.length then do
        let (v, st, rest) ← expression get fuel st rest
        let old ← look get st x
        let v ← binary o.dropLast old v
        some (v, (x, v) :: st, rest)
      else conditional get fuel st ts
    | _ => conditional get fuel st ts

/-- An alternative. -/
def conditional (get : Octets → Option Octets) : Nat → Store → List Token →
    Option (Int × Store × List Token)
  | 0, _, _ => none
  | fuel + 1, st, ts => do
    let (c, st, rest) ← climb get fuel 1 st ts
    match rest with
    | .op ['?'] :: rest =>
      let (a, stA, rest) ← expression get fuel st rest
      match rest with
      | .op [':'] :: rest =>
        let (b, stB, rest) ← expression get fuel st rest
        if c ≠ 0 then some (a, stA, rest) else some (b, stB, rest)
      | _ => none
    | rest => some (c, st, rest)

/-- Binary operations that bind at least as tightly as a level. -/
def climb (get : Octets → Option Octets) : Nat → Nat → Store → List Token →
    Option (Int × Store × List Token)
  | 0, _, _, _ => none
  | fuel + 1, least, st, ts => do
    let (a, st, rest) ← unary get fuel st ts
    climbRest get fuel least a st rest

/-- The operators behind an operand. -/
def climbRest (get : Octets → Option Octets) : Nat → Nat → Int → Store → List Token →
    Option (Int × Store × List Token)
  | 0, _, _, _, _ => none
  | fuel + 1, least, a, st, ts =>
    match ts with
    | .op o :: rest =>
      match level o with
      | some l =>
        if least ≤ l then do
          let (b, st, rest) ← climb get fuel (l + 1) st rest
          let v ← binary o a b
          climbRest get fuel least v st rest
        else some (a, st, ts)
      | none => some (a, st, ts)
    | _ => some (a, st, ts)

/-- An operand with the signs before it. -/
def unary (get : Octets → Option Octets) : Nat → Store → List Token →
    Option (Int × Store × List Token)
  | 0, _, _ => none
  | fuel + 1, st, ts =>
    match ts with
    | .number n :: rest => some (n, st, rest)
    | .name x :: rest => (look get st x).map fun v => (v, st, rest)
    | .op o :: rest =>
      if o = ['('] then do
        let (v, st, rest) ← expression get fuel st rest
        match rest with
        | .op [')'] :: rest => some (v, st, rest)
        | _ => none
      else if o = ['-'] then (unary get fuel st rest).map fun (v, st, rest) => (wrap (-v), st, rest)
      else if o = ['+'] then unary get fuel st rest
      else if o = ['!'] then
        (unary get fuel st rest).map fun (v, st, rest) => (if v = 0 then 1 else 0, st, rest)
      else if o = ['~'] then (unary get fuel st rest).map fun (v, st, rest) => (-v - 1, st, rest)
      else none
    | [] => none

end

/-- The value of an expression, and the variables it sets. -/
def value? (get : Octets → Option Octets) (cs : Octets) : Option (Int × Store) := do
  let ts ← tokens (cs.length + 1) cs
  if ts.isEmpty then some (0, [])
  else
    let (v, st, rest) ← expression get (20 * ts.length + 20) [] ts
    if rest.isEmpty then some (v, st) else none

end Arithmetic

end SourceFormat.Shell
