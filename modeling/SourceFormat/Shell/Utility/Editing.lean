import SourceFormat.Shell.Pattern
import SourceFormat.Shell.Utility.Streams

/-!
# Utilities that look at lines by regular expressions

`grep` selects lines, `sed` runs a short list of commands over each line.
-/

namespace SourceFormat.Shell.Utility

/-- A character in lower case. -/
def lower (cs : Octets) : Octets := cs.map Char.toLower

/-- An expression that stands for nothing but the given characters. -/
def literalRegex (cs : Octets) : Regex :=
  cs.foldl (fun r c => match r with
    | .empty => .one (.char c)
    | r => .both r (.one (.char c))) .empty

/-! ## Selecting lines -/

/-- What `grep` was asked for. -/
structure Selection where
  patterns : List Regex
  inverted : Bool
  wholeLine : Bool
  foldCase : Bool

/-- Whether a line is selected. -/
def Selection.selects (s : Selection) (line : Octets) : Bool :=
  let line := if s.foldCase then lower line else line
  let found := s.patterns.any fun r =>
    let r := if s.wholeLine then .both .start (.both r .stop) else r
    (r.find? line).isSome
  found != s.inverted

/-- The parts of a line that match, one after the other. -/
def matchesIn (r : Regex) (depth : Nat) : Nat → Regex.Point → List Octets
  | 0, _ => []
  | fuel + 1, p =>
    match r.findFrom depth (p.ahead.length + 1) p with
    | none => []
    | some (a, b) =>
      let text := a.ahead.take (b.taken - a.taken)
      if text.isEmpty then
        if b.ahead.isEmpty then [] else matchesIn r depth fuel (b.advance 1)
      else text :: matchesIn r depth fuel b

/-- What `grep` prints of one file, and how many lines of it are selected. -/
def grepLines (os : List (Char × Octets)) (s : Selection) (label : Octets) (bs : Bytes) :
    Octets × Nat :=
  let ls := ((linesOf (ofBytes bs)).map bare).zipIdx
  let hits := ls.filter fun (l, _) => s.selects l
  let number := fun (i : Nat) =>
    if given os 'n' then octets (toString (i + 1)) ++ [':'] else []
  if given os 'c' then (label ++ octets (toString hits.length) ++ ['\n'], hits.length)
  else if given os 'o' then
    (hits.flatMap fun (l, i) =>
      (s.patterns.flatMap fun r =>
        matchesIn r (8 * l.length + 1000) (l.length + 1) { behind := [], ahead := l }).flatMap
          fun text => label ++ number i ++ text ++ ['\n'], hits.length)
  else (hits.flatMap fun (l, i) => label ++ number i ++ l ++ ['\n'], hits.length)

/-- Print the lines that match.  The status tells whether there was one. -/
def grep (extended : Bool) (args : List Octets) : Act Nat := do
  let (os, operands) := optionsOf "emABC" args
  let (patterns, operands) := match valueOf? os 'e' with
    | some _ => (valuesOf os 'e', operands)
    | none => (operands.take 1, operands.drop 1)
  if patterns.isEmpty then
    complain (octets "Usage: grep [OPTION]... PATTERNS [FILE]...")
    return 2
  let foldCase := given os 'i'
  let read := fun (cs : Octets) =>
    let cs := if foldCase then lower cs else cs
    if given os 'F' then some (literalRegex cs) else Regex.parse? (extended || given os 'E') cs
  let patterns := patterns.flatMap (splitAtChar '\n')
  let regexes := patterns.filterMap read
  if regexes.length ≠ patterns.length then
    complain (octets "grep: Invalid regular expression")
    return 2
  let selection : Selection :=
    { patterns := regexes, inverted := given os 'v', wholeLine := given os 'x', foldCase }
  let many := 1 < operands.length && !given os 'h' || given os 'H'
  let mut hits := 0
  let mut failed := false
  for a in (if operands.isEmpty then [['-']] else operands) do
    match ← contentsOf a endless with
    | .ok bs =>
      let name := if a = ['-'] then octets "(standard input)" else a
      let label := if many then name ++ [':'] else []
      let (out, n) := grepLines os selection label bs
      hits := hits + n
      if given os 'q' then pure ()
      else if given os 'l' then
        if 0 < n then
          let _ ← say (name ++ ['\n'])
      else
        let _ ← say out
    | .error e =>
      if !given os 's' then blame "grep" a e
      failed := true
  return if failed && !(given os 'q' && 0 < hits) then 2 else if hits = 0 then 1 else 0

/-! ## Editing lines -/

/-- Which line a command is for. -/
inductive Address where
  | line (n : Nat)
  | last
  | matching (r : Regex)

/-- What a command of `sed` does. -/
inductive EditKind where
  /-- Replace the `nth` match, and all that follow if `all`. -/
  | substitute (r : Regex) (replacement : Octets) (nth : Nat) (all print : Bool)
  | delete
  | print
  | quit
  | number
  | translate (source target : Octets)
  | behind (text : Octets)
  | before (text : Octets)
  | instead (text : Octets)

/-- A command of `sed`. -/
structure Edit where
  first : Option Address := none
  second : Option Address := none
  negated : Bool := false
  kind : EditKind

/-- Characters up to a delimiter, which a backslash takes its meaning from; none without one. -/
def upTo (delimiter : Char) : Octets → Octets → Option (Octets × Octets)
  | _, [] => none
  | found, '\\' :: c :: rest =>
    if c = delimiter then upTo delimiter (c :: found) rest
    else upTo delimiter (c :: '\\' :: found) rest
  | found, c :: rest =>
    if c = delimiter then some (found.reverse, rest) else upTo delimiter (c :: found) rest

/-- An address, if one follows. -/
def address? (extended : Bool) (cs : Octets) : Option (Address × Octets) :=
  match cs with
  | '$' :: rest => some (.last, rest)
  | '/' :: rest => do
    let (text, rest) ← upTo '/' [] rest
    let r ← Regex.parse? extended text
    some (.matching r, rest)
  | _ =>
    let ds := cs.takeWhile Char.isDigit
    if ds.isEmpty then none else some (.line (decimal ds), cs.drop ds.length)

/-- Drop blanks and what separates commands. -/
def skipSeparators (cs : Octets) : Octets :=
  cs.dropWhile fun c => c = ' ' || c = '\t' || c = ';' || c = '\n'

/-- Drop blanks. -/
def skipSpaces (cs : Octets) : Octets := cs.dropWhile fun c => c = ' ' || c = '\t'

/-- The text of a command, up to the end of its line. -/
def textArgument (cs : Octets) : Octets × Octets :=
  let cs := match skipSpaces cs with
    | '\\' :: '\n' :: rest => rest
    | '\\' :: rest => rest
    | rest => rest
  (cs.takeWhile (· ≠ '\n'), cs.dropWhile (· ≠ '\n'))

/-- The flags of a substitution. -/
def substitutionFlags (cs : Octets) : Octets × Octets :=
  let fs := cs.takeWhile fun c => c.isDigit || c = 'g' || c = 'p' || c = 'i' || c = 'I'
  (fs, cs.drop fs.length)

/-- What a command does, and what follows it. -/
def editKind? (extended : Bool) (cs : Octets) : Option (EditKind × Octets) :=
  match cs with
  | 's' :: d :: rest => do
    let (pattern, rest) ← upTo d [] rest
    let (replacement, rest) ← upTo d [] rest
    let (fs, rest) := substitutionFlags rest
    let r ← Regex.parse? extended pattern
    let ds := fs.filter Char.isDigit
    some (.substitute r replacement (if ds.isEmpty then 1 else decimal ds) (fs.contains 'g')
      (fs.contains 'p'), rest)
  | 'y' :: d :: rest => do
    let (source, rest) ← upTo d [] rest
    let (target, rest) ← upTo d [] rest
    some (.translate source target, rest)
  | 'd' :: rest => some (.delete, rest)
  | 'p' :: rest => some (.print, rest)
  | 'q' :: rest => some (.quit, rest)
  | '=' :: rest => some (.number, rest)
  | 'a' :: rest => let (text, rest) := textArgument rest; some (.behind text, rest)
  | 'i' :: rest => let (text, rest) := textArgument rest; some (.before text, rest)
  | 'c' :: rest => let (text, rest) := textArgument rest; some (.instead text, rest)
  | _ => none

/-- The commands of a script for `sed`. -/
def edits? (extended : Bool) : Nat → Octets → Option (List Edit)
  | 0, _ => none
  | fuel + 1, cs =>
    match skipSeparators cs with
    | [] => some []
    | '#' :: rest => edits? extended fuel (rest.dropWhile (· ≠ '\n'))
    | cs => do
      let (first, cs) := match address? extended cs with
        | some (a, cs) => (some a, cs)
        | none => (none, cs)
      let (second, cs) := match cs with
        | ',' :: rest =>
          match address? extended (skipSpaces rest) with
          | some (a, rest) => (some a, rest)
          | none => (none, cs)
        | cs => (none, cs)
      let cs := skipSpaces cs
      let (negated, cs) := match cs with
        | '!' :: rest => (true, skipSpaces rest)
        | cs => (false, cs)
      let (kind, cs) ← editKind? extended cs
      let more ← edits? extended fuel cs
      some ({ first, second, negated, kind } :: more)

/-- The text that takes the place of a match. -/
def replacementText (whole : Octets) (groups : List (Nat × Octets)) : Octets → Octets
  | [] => []
  | '\\' :: c :: rest =>
    let here :=
      if c.isDigit then
        let n := c.toNat - '0'.toNat
        if n = 0 then whole else ((groups.find? (·.1 = n)).map (·.2)).getD []
      else [if c = 'n' then '\n' else if c = 't' then '\t' else c]
    here ++ replacementText whole groups rest
  | '&' :: rest => whole ++ replacementText whole groups rest
  | c :: rest => c :: replacementText whole groups rest

/-- Replace matches in a line from a position on.  `seen` counts the matches so far, `found` is what
was made so far, latest first, and `joined` says that a match ended right here, where an empty one
does not count.  The flag says whether anything was replaced. -/
def substituteFrom (r : Regex) (replacement : Octets) (nth : Nat) (all : Bool) (depth : Nat) :
    Nat → Nat → Octets → Bool → Bool → Regex.Point → Octets × Bool
  | 0, _, found, _, changed, p => (found.reverse ++ p.ahead, changed)
  | fuel + 1, seen, found, joined, changed, p =>
    match r.findFrom depth depth p with
    | none => (found.reverse ++ p.ahead, changed)
    | some (a, b) =>
      let found := (p.ahead.take (a.taken - p.taken)).reverse ++ found
      let whole := a.ahead.take (b.taken - a.taken)
      if whole.isEmpty && joined && a.taken = p.taken then
        match p.ahead with
        | [] => (found.reverse, changed)
        | c :: _ =>
          substituteFrom r replacement nth all depth fuel seen (c :: found) false changed
            (a.advance 1)
      else
        let seen := seen + 1
        let here := nth ≤ seen
        let text := if here then replacementText whole b.groups replacement else whole
        let found := text.reverse ++ found
        let b := { b with groups := [] }
        if here && !all then (found.reverse ++ b.ahead, true)
        else if whole.isEmpty then
          match b.ahead with
          | [] => (found.reverse, changed || here)
          | c :: _ =>
            substituteFrom r replacement nth all depth fuel seen (c :: found) false
              (changed || here) (b.advance 1)
        else
          substituteFrom r replacement nth all depth fuel seen found true (changed || here) b

/-- Replace matches in a line. -/
def substituteIn (r : Regex) (replacement : Octets) (nth : Nat) (all : Bool) (line : Octets) :
    Octets × Bool :=
  let n := line.length
  substituteFrom r replacement nth all (8 * n + 1000) (2 * n + 2) 0 [] false false
    { behind := [], ahead := line }

/-- What becomes of a line: what is printed so far, latest first, and what follows it. -/
structure EditState where
  line : Octets
  out : List Octets := []
  behind : List Octets := []
  deleted : Bool := false
  quit : Bool := false

/-- Whether an address is met. -/
def Address.meets (a : Address) (n : Nat) (isLast : Bool) (line : Octets) : Bool :=
  match a with
  | .line m => n = m
  | .last => isLast
  | .matching r => (r.find? line).isSome

/-- Whether a command is for a line, and whether its range is open behind it. -/
def Edit.applies (e : Edit) (isOpen : Bool) (n : Nat) (isLast : Bool) (line : Octets) :
    Bool × Bool :=
  match e.first, e.second with
  | none, _ => (true, false)
  | some a, none => (a.meets n isLast line, false)
  | some a, some b =>
    if isOpen then
      match b with
      | .line m => (n ≤ m, n < m)
      | b => (true, !b.meets n isLast line)
    else if a.meets n isLast line then
      match b with
      | .line m => (true, n < m)
      | _ => (true, true)
    else (false, false)

/-- Do what a command does. -/
def EditKind.apply (k : EditKind) (n : Nat) (s : EditState) : EditState :=
  match k with
  | .substitute r replacement nth all showIt =>
    let (line, changed) := substituteIn r replacement nth all s.line
    { s with line, out := if changed && showIt then line :: s.out else s.out }
  | .delete => { s with deleted := true }
  | .print => { s with out := s.line :: s.out }
  | .quit => { s with quit := true }
  | .number => { s with out := octets (toString n) :: s.out }
  | .translate source target =>
    { s with line := s.line.map fun c =>
      match source.findIdx? (· = c) with
      | some i => (target[i]?).getD c
      | none => c }
  | .behind text => { s with behind := text :: s.behind }
  | .before text => { s with out := text :: s.out }
  | .instead text => { s with out := text :: s.out, deleted := true }

/-- Run the commands over one line.  Each comes with whether its range is open. -/
def editLine (n : Nat) (isLast : Bool) : List (Edit × Bool) → EditState →
    List (Edit × Bool) × EditState
  | [], s => ([], s)
  | (e, isOpen) :: es, s =>
    if s.deleted || s.quit then ((e, isOpen) :: es, s)
    else
      let (yes, isOpen) := e.applies isOpen n isLast s.line
      let s := if yes != e.negated then e.kind.apply n s else s
      let (es, s) := editLine n isLast es s
      ((e, isOpen) :: es, s)

/-- Run the commands over lines: what is printed, latest first. -/
def editLines (silent : Bool) : Nat → List (Edit × Bool) → List Octets → List Octets → List Octets
  | _, _, [], found => found
  | n, es, l :: ls, found =>
    let complete := l.getLast? = some '\n'
    let (es, s) := editLine n ls.isEmpty es { line := bare l }
    let own := if silent || s.deleted then [] else [s.line]
    let printed := s.out.reverse ++ own ++ s.behind.reverse
    let ended := printed.zipIdx.map fun (t, i) =>
      if i + 1 = printed.length && !complete then t else t ++ ['\n']
    let found := ended.reverse ++ found
    if s.quit then found else editLines silent (n + 1) es ls found

/-- Edit lines. -/
def sed (args : List Octets) : Act Nat := do
  let (os, operands) := optionsOf "ef" args
  let extended := given os 'E' || given os 'r'
  let (script, operands) := match valueOf? os 'e' with
    | some _ => ((valuesOf os 'e').flatMap (· ++ ['\n']), operands)
    | none => (operands.headD [], operands.drop 1)
  match edits? extended (script.length + 1) script with
  | none =>
    complain (octets "sed: -e expression #1, char " ++ octets (toString script.length)
      ++ octets ": unknown command")
    return 1
  | some es =>
    let es := es.map (·, false)
    let silent := given os 'n'
    if given os 'i' then
      let mut status := 0
      for a in operands do
        match ← contentsOf a endless with
        | .ok bs =>
          let out := (editLines silent 1 es (linesOf (ofBytes bs)) []).reverse.flatten
          let _ ← change fun t => t.write (pathOf a) (toBytes out)
        | .error _ =>
          complain (octets "sed: can't read " ++ a ++ octets ": No such file or directory")
          status := 2
      return status
    else
      let mut found : List Bytes := []
      let mut status := 0
      for a in (if operands.isEmpty then [['-']] else operands) do
        match ← contentsOf a endless with
        | .ok bs => found := bs :: found
        | .error e =>
          complain (octets "sed: can't read " ++ a ++ octets ": " ++ reason e)
          status := 2
      let ls := linesOf (ofBytes found.reverse.flatten)
      let _ ← say (editLines silent 1 es ls []).reverse.flatten
      return status

end SourceFormat.Shell.Utility
