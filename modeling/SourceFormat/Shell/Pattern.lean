import SourceFormat.Shell.Command

/-!
# Patterns and regular expressions

A file name pattern has `*` for any characters, `?` for one, and sets in brackets; a quoted
character stands for itself.  A regular expression of the basic kind has `.`, sets, `*`, anchors,
groups, counts and references to groups.  Both work on bytes.
-/

namespace SourceFormat.Shell

/-- One position of a pattern. -/
inductive Atom where
  | char (c : Char)
  | any
  /-- One of some ranges of characters, or none of them. -/
  | set (negated : Bool) (ranges : List (Char × Char))
  deriving Repr, DecidableEq

/-- Whether an atom takes a character. -/
def Atom.takes (a : Atom) (c : Char) : Bool :=
  match a with
  | char d => c = d
  | any => true
  | set negated ranges => (ranges.any fun (low, high) => low ≤ c && c ≤ high) != negated

/-- The named classes of characters, in ASCII. -/
def namedClass (name : Octets) : List (Char × Char) :=
  match String.ofList name with
  | "alpha" => [('a', 'z'), ('A', 'Z')]
  | "digit" => [('0', '9')]
  | "alnum" => [('a', 'z'), ('A', 'Z'), ('0', '9')]
  | "upper" => [('A', 'Z')]
  | "lower" => [('a', 'z')]
  | "space" => [('\t', '\r'), (' ', ' ')]
  | "blank" => [('\t', '\t'), (' ', ' ')]
  | "punct" => [('!', '/'), (':', '@'), ('[', '\x60'), ('\x7b', '~')]
  | "xdigit" => [('0', '9'), ('a', 'f'), ('A', 'F')]
  | "cntrl" => [('\x00', '\x1F'), ('\x7F', '\x7F')]
  | "print" => [(' ', '~')]
  | "graph" => [('!', '~')]
  | _ => []

/-- The members of a set in brackets, up to its closing bracket.  `first` holds at its very
beginning, where a closing bracket stands for itself. -/
def setMembers : Nat → Bool → Octets → Option (List (Char × Char) × Octets)
  | 0, _, _ => none
  | fuel + 1, first, cs =>
    match cs with
    | [] => none
    | '[' :: ':' :: more =>
      let name := more.takeWhile (· ≠ ':')
      match more.drop name.length with
      | ':' :: ']' :: behind =>
        (setMembers fuel false behind).map fun (rs, behind) => (namedClass name ++ rs, behind)
      | _ =>
        (setMembers fuel false (':' :: more)).map fun (rs, behind) => (('[', '[') :: rs, behind)
    | c :: more =>
      if c = ']' ∧ !first then some ([], more)
      else
        match more with
        | '-' :: d :: behind =>
          if d = ']' then
            (setMembers fuel false more).map fun (rs, behind) => ((c, c) :: rs, behind)
          else (setMembers fuel false behind).map fun (rs, behind) => ((c, d) :: rs, behind)
        | _ => (setMembers fuel false more).map fun (rs, behind) => ((c, c) :: rs, behind)

/-- A set in brackets, behind its opening bracket. -/
def set? (negation : List Char) (cs : Octets) : Option (Atom × Octets) :=
  match cs with
  | c :: more =>
    if negation.contains c then
      (setMembers (more.length + 1) true more).map fun (rs, behind) => (.set true rs, behind)
    else (setMembers (cs.length + 1) true cs).map fun (rs, behind) => (.set false rs, behind)
  | [] => none

/-! ## File name patterns -/

/-- One position of a file name pattern. -/
inductive Glob where
  | one (a : Atom)
  | many
  deriving Repr, DecidableEq

/-- Read a file name pattern; each character comes with whether it is quoted. -/
def Glob.read : Nat → List (Char × Bool) → List Glob
  | 0, _ => []
  | _, [] => []
  | fuel + 1, (c, quoted) :: rest =>
    if quoted then .one (.char c) :: Glob.read fuel rest
    else if c = '*' then .many :: Glob.read fuel rest
    else if c = '?' then .one .any :: Glob.read fuel rest
    else if c = '\\' then
      match rest with
      | (d, _) :: rest => .one (.char d) :: Glob.read fuel rest
      | [] => [.one (.char '\\')]
    else if c = '[' then
      match set? ['!', '^'] (rest.map (·.1)) with
      | some (a, behind) => .one a :: Glob.read fuel (rest.drop (rest.length - behind.length))
      | none => .one (.char '[') :: Glob.read fuel rest
    else .one (.char c) :: Glob.read fuel rest

/-- The pattern of characters with their quoting. -/
def Glob.ofChars (cs : List (Char × Bool)) : List Glob := Glob.read (cs.length + 1) cs

/-- The ends of a text, longest first. -/
def ends : Octets → List Octets
  | [] => [[]]
  | c :: cs => (c :: cs) :: ends cs

/-- Whether a text fits a pattern from one end to the other. -/
def Glob.fits : List Glob → Octets → Bool
  | [], cs => cs.isEmpty
  | .one a :: gs, cs =>
    match cs with
    | [] => false
    | c :: cs => a.takes c && Glob.fits gs cs
  | .many :: gs, cs => (ends cs).any (Glob.fits gs)

/-- Whether characters could be a pattern at all. -/
def Glob.isPattern (cs : List (Char × Bool)) : Bool :=
  cs.any fun (c, quoted) => !quoted && (c = '*' || c = '?' || c = '[')

/-- The beginnings of a text, shortest first. -/
def inits (cs : Octets) : List Octets :=
  (List.range (cs.length + 1)).map cs.take

/-- A text without a beginning that fits. -/
def dropFront (gs : List Glob) (longest : Bool) (cs : Octets) : Octets :=
  let candidates := if longest then (inits cs).reverse else inits cs
  match candidates.find? (Glob.fits gs) with
  | some front => cs.drop front.length
  | none => cs

/-- A text without an end that fits. -/
def dropBack (gs : List Glob) (longest : Bool) (cs : Octets) : Octets :=
  let candidates := if longest then ends cs else (ends cs).reverse
  match candidates.find? (Glob.fits gs) with
  | some back => cs.take (cs.length - back.length)
  | none => cs

/-! ## Regular expressions -/

/-- A regular expression. -/
inductive Regex where
  | empty
  | one (a : Atom)
  /-- The beginning of the line. -/
  | start
  /-- The end of the line. -/
  | stop
  | both (first second : Regex)
  | either (first second : Regex)
  | times (body : Regex) (least : Nat) (most : Option Nat)
  | group (number : Nat) (body : Regex)
  | reference (number : Nat)
  deriving Repr, DecidableEq, Inhabited

namespace Regex

/-- A position in a line: what was taken so far, latest first and counted, what follows, and the
groups. -/
structure Point where
  behind : Octets
  taken : Nat := 0
  ahead : Octets
  groups : List (Nat × Octets) := []

/-- The position so many characters further on. -/
def Point.advance (p : Point) (n : Nat) : Point :=
  { p with
    behind := (p.ahead.take n).reverse ++ p.behind
    taken := p.taken + n
    ahead := p.ahead.drop n }

/-- The first of the positions `least + n`, …, `least` characters further on from which it goes on.
-/
def fromLongest (p : Point) (least : Nat) (k : Point → Option Point) : Nat → Option Point
  | 0 => k (p.advance least)
  | n + 1 => (k (p.advance (least + n + 1))).orElse fun _ => fromLongest p least k n

/-- Match from a position on, and go on with what follows; the first way that works counts. -/
def run : Nat → Regex → Point → (Point → Option Point) → Option Point
  | 0, _, _, _ => none
  | fuel + 1, r, p, k =>
    match r with
    | empty => k p
    | one a =>
      match p.ahead with
      | [] => none
      | c :: _ => if a.takes c then k (p.advance 1) else none
    | start => if p.taken = 0 then k p else none
    | stop => if p.ahead.isEmpty then k p else none
    | both a b => run fuel a p fun p => run fuel b p k
    | either a b => (run fuel a p k).orElse fun _ => run fuel b p k
    | times (one a) least most =>
      let found := (p.ahead.takeWhile a.takes).length
      let found := (most.map (min found)).getD found
      if found < least then none else fromLongest p least k (found - least)
    | times body least most =>
      let stopHere := fun (_ : Unit) => if least = 0 then k p else none
      if most = some 0 then k p
      else
        (run fuel body p fun q =>
          if q.taken = p.taken ∧ least = 0 then none
          else run fuel (times body (least - 1) (most.map (· - 1))) q k).orElse stopHere
    | group n body =>
      run fuel body p fun q =>
        let text := (q.behind.take (q.taken - p.taken)).reverse
        k { q with groups := (n, text) :: q.groups }
    | reference n =>
      let text := ((p.groups.find? (·.1 = n)).map (·.2)).getD []
      if text.isPrefixOf p.ahead then k (p.advance text.length) else none

/-- The first match in a line from a position on: where it begins and where it ends.  `fuel` bounds
the number of positions, `depth` the steps at one of them. -/
def findFrom (r : Regex) (depth : Nat) : Nat → Point → Option (Point × Point)
  | 0, _ => none
  | fuel + 1, p =>
    match run depth r p some with
    | some q => some (p, q)
    | none => if p.ahead.isEmpty then none else findFrom r depth fuel (p.advance 1)

/-- The first match in a line. -/
def find? (r : Regex) (line : Octets) : Option (Point × Point) :=
  let n := line.length
  r.findFrom (8 * n + 1000) (n + 1) { behind := [], ahead := line }

/-- What an item of an expression is followed by: how often it is to be taken. -/
def counted (extended : Bool) (r : Regex) (cs : Octets) : Option (Regex × Octets) :=
  let bounds (cs : Octets) (close : Octets) : Option (Regex × Octets) :=
    let low := cs.takeWhile Char.isDigit
    let cs := cs.drop low.length
    let least := ((String.ofList low).toNat?).getD 0
    match cs with
    | ',' :: cs =>
      let high := cs.takeWhile Char.isDigit
      let cs := cs.drop high.length
      if close.isPrefixOf cs then
        some (times r least (String.ofList high).toNat?, cs.drop close.length)
      else none
    | cs =>
      if close.isPrefixOf cs then some (times r least (some least), cs.drop close.length) else none
  match cs, extended with
  | '*' :: cs, _ => some (times r 0 none, cs)
  | '+' :: cs, true => some (times r 1 none, cs)
  | '?' :: cs, true => some (times r 0 (some 1), cs)
  | '\x7b' :: cs, true => bounds cs ['\x7d']
  | '\\' :: '+' :: cs, false => some (times r 1 none, cs)
  | '\\' :: '?' :: cs, false => some (times r 0 (some 1), cs)
  | '\\' :: '\x7b' :: cs, false => bounds cs ['\\', '\x7d']
  | _, _ => none

/-- Read an expression up to its end or to the end of the group it is in.  `soFar` is what was read
of the current alternative, and `groups` counts the groups. -/
def read (extended : Bool) : Nat → Regex → Nat → Octets → Option (Regex × Nat × Octets)
  | 0, _, _, _ => none
  | fuel + 1, soFar, groups, cs =>
    let item (r : Regex) (groups : Nat) (cs : Octets) : Option (Regex × Nat × Octets) :=
      let (r, cs) := match counted extended r cs with
        | some (r, cs) => (r, cs)
        | none => (r, cs)
      -- a second count is read as one of the counted item
      let (r, cs) := match counted extended r cs with
        | some (r, cs) => (r, cs)
        | none => (r, cs)
      read extended fuel (match soFar with | empty => r | _ => both soFar r) groups cs
    let alternative (cs : Octets) : Option (Regex × Nat × Octets) :=
      (read extended fuel empty groups cs).map fun (r, groups, cs) => (either soFar r, groups, cs)
    let openGroup (close : Octets) (cs : Octets) : Option (Regex × Nat × Octets) :=
      match read extended fuel empty (groups + 1) cs with
      | some (r, n, cs) =>
        if close.isPrefixOf cs then item (group (groups + 1) r) n (cs.drop close.length) else none
      | none => none
    match cs with
    | [] => some (soFar, groups, [])
    | '\\' :: c :: rest =>
      if !extended ∧ c = '(' then openGroup ['\\', ')'] rest
      else if !extended ∧ c = ')' then some (soFar, groups, cs)
      else if !extended ∧ c = '|' then alternative rest
      else if c.isDigit ∧ c ≠ '0' then item (reference (c.toNat - '0'.toNat)) groups rest
      else if c = 'n' then item (one (.char '\n')) groups rest
      else if c = 't' then item (one (.char '\t')) groups rest
      else if c = 's' then item (one (.set false (namedClass "space".toList))) groups rest
      else if c = 'w' then
        item (one (.set false (('_', '_') :: namedClass "alnum".toList))) groups rest
      else item (one (.char c)) groups rest
    | '(' :: rest => if extended then openGroup [')'] rest else item (one (.char '(')) groups rest
    | ')' :: rest =>
      if extended then some (soFar, groups, cs) else item (one (.char ')')) groups rest
    | '|' :: rest => if extended then alternative rest else item (one (.char '|')) groups rest
    | '.' :: rest => item (one .any) groups rest
    | '[' :: rest =>
      match set? ['^'] rest with
      | some (a, rest) => item (one a) groups rest
      | none => none
    | '^' :: rest =>
      if extended ∨ soFar = empty then item start groups rest
      else item (one (.char '^')) groups rest
    | '$' :: rest =>
      if extended ∨ rest.isEmpty ∨ ['\\', ')'].isPrefixOf rest ∨ ['\\', '|'].isPrefixOf rest then
        item stop groups rest
      else item (one (.char '$')) groups rest
    | c :: rest => item (one (.char c)) groups rest

/-- The expression that a text spells. -/
def parse? (extended : Bool) (cs : Octets) : Option Regex :=
  match read extended (4 * cs.length + 10) empty 0 cs with
  | some (r, _, []) => some r
  | _ => none

end Regex

end SourceFormat.Shell
