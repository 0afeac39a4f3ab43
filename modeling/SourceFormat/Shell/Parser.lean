import SourceFormat.Shell.Command

/-!
# Reading shell scripts

The reader takes a script character by character.  Commands nest, so the functions below call one
another; each call uses up one unit of fuel, and a script has far fewer of them than the fuel
computed from its length.

A script is read line by line: what is wrong on one line does not keep the lines before it from
being run.
-/

namespace SourceFormat.Shell

/-- A text that is still to be read from the lines that follow. -/
structure PendingText where
  id : Nat
  delimiter : Octets
  stripTabs : Bool
  quoted : Bool

/-- The state of the reader. -/
structure ReaderState where
  rest : Octets
  line : Nat := 1
  nextId : Nat := 0
  pending : List PendingText := []
  texts : List HereText := []

/-- Something that reads a script. -/
abbrev Reads := StateT ReaderState Option

namespace Reads

/-- What follows. -/
def rest : Reads Octets := do return (← get).rest

/-- The next character, if there is one. -/
def peek? : Reads (Option Char) := do return (← get).rest.head?

/-- Drop so many characters; none of them is a line end. -/
def drop (n : Nat) : Reads Unit := modify fun s => { s with rest := s.rest.drop n }

/-- Whether the given characters follow; if so, they are dropped. -/
def eat (cs : Octets) : Reads Bool := do
  if cs.isPrefixOf (← rest) then drop cs.length; return true else return false

/-- The given characters must follow. -/
def expect (cs : Octets) : Reads Unit := do
  if ← eat cs then return () else failure

end Reads

open Reads

/-- A character that ends a word. -/
def endsWord (c : Char) : Bool :=
  c = ' ' || c = '\t' || c = '\n' || c = ';' || c = '&' || c = '|' || c = '(' || c = ')'
    || c = '<' || c = '>'

/-- A character of a name. -/
def isNameChar (c : Char) : Bool := c.isAlphanum || c = '_'

/-- Whether characters are a name. -/
def isName (cs : Octets) : Bool :=
  match cs with
  | [] => false
  | c :: _ => !c.isDigit && cs.all isNameChar

/-- The words that open and close compound commands. -/
def reservedWords : List Octets :=
  ["if", "then", "else", "elif", "fi", "do", "done", "case", "esac", "while", "until", "for",
   "\x7b", "\x7d", "!"].map String.toList

/-- The characters up to the end of the word that follows. -/
def rawWord : Reads Octets := do return (← rest).takeWhile fun c => !endsWord c

/-- Whether the given reserved word follows; if so, it is dropped. -/
def eatWord (w : String) : Reads Bool := do
  if (← rawWord) = w.toList then drop w.length; return true else return false

/-- The given reserved word must follow. -/
def expectWord (w : String) : Reads Unit := do
  if ← eatWord w then return () else failure

/-- Drop blanks, joined lines and a comment. -/
def skipBlanks : Nat → Reads Unit
  | 0 => return ()
  | fuel + 1 => do
    match ← rest with
    | ' ' :: _ => drop 1; skipBlanks fuel
    | '\t' :: _ => drop 1; skipBlanks fuel
    | '\\' :: '\n' :: _ =>
      drop 2
      modify fun s => { s with line := s.line + 1 }
      skipBlanks fuel
    | '#' :: cs => modify fun s => { s with rest := cs.dropWhile (· ≠ '\n') }
    | _ => return ()

/-- Cut off the first line. -/
def cutLine (cs : Octets) : Octets × Octets :=
  (cs.takeWhile (· ≠ '\n'), (cs.dropWhile (· ≠ '\n')).drop 1)

/-- The lines of a text in the script up to its delimiter. -/
def hereLines (p : PendingText) : Nat → Octets → Octets × Octets × Nat
  | 0, cs => ([], cs, 0)
  | fuel + 1, cs =>
    if cs.isEmpty then ([], [], 0)
    else
      let (line, behind) := cutLine cs
      let line := if p.stripTabs then line.dropWhile (· = '\t') else line
      if line = p.delimiter then ([], behind, 1)
      else
        let (more, behind, n) := hereLines p fuel behind
        (line ++ '\n' :: more, behind, n + 1)

mutual

/-- The parts of a word, up to a character that ends it. -/
def wordParts : Nat → List Part → Reads (List Part)
  | 0, _ => failure
  | fuel + 1, found => do
    match ← rest with
    | [] => return found.reverse
    | '\\' :: '\n' :: _ => do
      drop 2
      modify fun s => { s with line := s.line + 1 }
      wordParts fuel found
    | '\\' :: c :: _ => do drop 2; wordParts fuel (.chars [c] true :: found)
    | '\\' :: [] => do drop 1; wordParts fuel (.chars ['\\'] true :: found)
    | '\'' :: cs => do
      let text := cs.takeWhile (· ≠ '\'')
      if text.length = cs.length then failure
      modify fun s => { s with
        rest := cs.drop (text.length + 1)
        line := s.line + (text.filter (· = '\n')).length }
      wordParts fuel (.chars text true :: found)
    | '"' :: _ => do
      drop 1
      let inner ← quotedParts fuel (some '"') [.chars [] true]
      wordParts fuel (inner.reverse ++ found)
    | '$' :: _ => do
      let part ← dollar fuel false
      wordParts fuel (part :: found)
    | '\x60' :: _ => do
      let part ← backquote fuel false
      wordParts fuel (part :: found)
    | c :: _ =>
      if endsWord c then return found.reverse
      else do drop 1; wordParts fuel (.chars [c] false :: found)

/-- The parts of a quoted text, up to its closing quote or, without one, to the end. -/
def quotedParts : Nat → Option Char → List Part → Reads (List Part)
  | 0, _, _ => failure
  | fuel + 1, close, found => do
    match ← rest with
    | [] => if close.isSome then failure else return found.reverse
    | '\\' :: c :: _ => do
      drop 2
      if c = '\n' then
        modify fun s => { s with line := s.line + 1 }
        quotedParts fuel close found
      else if c = '$' ∨ c = '\x60' ∨ c = '\\' ∨ (c = '"' ∧ close.isSome) then
        quotedParts fuel close (.chars [c] true :: found)
      else quotedParts fuel close (.chars ['\\', c] true :: found)
    | '$' :: _ => do
      let part ← dollar fuel true
      quotedParts fuel close (part :: found)
    | '\x60' :: _ => do
      let part ← backquote fuel true
      quotedParts fuel close (part :: found)
    | c :: _ => do
      drop 1
      if close = some c then return found.reverse
      else
        if c = '\n' then modify fun s => { s with line := s.line + 1 }
        quotedParts fuel close (.chars [c] true :: found)

/-- What a dollar sign begins. -/
def dollar : Nat → Bool → Reads Part
  | 0, _ => failure
  | fuel + 1, quoted => do
    drop 1
    match ← rest with
    | '(' :: '(' :: _ => do
      drop 2
      let inner ← arithmeticParts fuel 0 []
      return .arithmetic inner quoted
    | '(' :: _ => do
      drop 1
      let body ← commands fuel []
      expect [')']
      return .output body quoted
    | '\x7b' :: _ => do
      drop 1
      braced fuel quoted
    | c :: cs =>
      if c.isAlpha || c = '_' then do
        let name := (c :: cs).takeWhile isNameChar
        drop name.length
        return .param name .plain [] quoted
      else if c.isDigit || c = '@' || c = '*' || c = '#' || c = '?' || c = '$' || c = '!'
          || c = '-' then do
        drop 1
        return .param [c] .plain [] quoted
      else return .chars ['$'] quoted
    | [] => return .chars ['$'] quoted

/-- A parameter between braces. -/
def braced : Nat → Bool → Reads Part
  | 0, _ => failure
  | fuel + 1, quoted => do
    let cs ← rest
    let nameAt := fun (cs : Octets) =>
      match cs with
      | c :: _ =>
        if c.isAlpha || c = '_' then cs.takeWhile isNameChar
        else if c.isDigit then cs.takeWhile Char.isDigit
        else if c = '@' || c = '*' || c = '#' || c = '?' || c = '$' || c = '!' || c = '-' then [c]
        else []
      | [] => []
    let isLength : Bool := match cs with
      | '#' :: c :: _ => c ≠ '\x7d'
      | _ => false
    if isLength then
      drop 1
      let name := nameAt (cs.drop 1)
      if name.isEmpty then failure
      drop name.length
      expect ['\x7d']
      return .param name .length [] quoted
    else
      let name := nameAt cs
      if name.isEmpty then failure
      drop name.length
      let colon ← eat [':']
      let op ←
        match ← rest with
        | '-' :: _ => do drop 1; pure (ParamOp.default colon)
        | '=' :: _ => do drop 1; pure (ParamOp.assign colon)
        | '+' :: _ => do drop 1; pure (ParamOp.alternative colon)
        | '?' :: _ => do drop 1; pure (ParamOp.require colon)
        | '#' :: '#' :: _ => do drop 2; pure (ParamOp.dropFront true)
        | '#' :: _ => do drop 1; pure (ParamOp.dropFront false)
        | '%' :: '%' :: _ => do drop 2; pure (ParamOp.dropBack true)
        | '%' :: _ => do drop 1; pure (ParamOp.dropBack false)
        | '\x7d' :: _ => pure ParamOp.plain
        | _ => failure
      let other ← bracedParts fuel (quoted && !op.takesPattern) []
      return .param name op other quoted

/-- The other word of a parameter, up to the closing brace. -/
def bracedParts : Nat → Bool → List Part → Reads (List Part)
  | 0, _, _ => failure
  | fuel + 1, quoted, found => do
    match ← rest with
    | [] => failure
    | '\x7d' :: _ => do drop 1; return found.reverse
    | '\\' :: c :: _ => do drop 2; bracedParts fuel quoted (.chars [c] true :: found)
    | '\'' :: cs =>
      if quoted then do drop 1; bracedParts fuel quoted (.chars ['\''] true :: found)
      else do
        let text := cs.takeWhile (· ≠ '\'')
        if text.length = cs.length then failure
        modify fun s => { s with rest := cs.drop (text.length + 1) }
        bracedParts fuel quoted (.chars text true :: found)
    | '"' :: _ => do
      drop 1
      let inner ← quotedParts fuel (some '"') [.chars [] true]
      bracedParts fuel quoted (inner.reverse ++ found)
    | '$' :: _ => do
      let part ← dollar fuel quoted
      bracedParts fuel quoted (part :: found)
    | '\x60' :: _ => do
      let part ← backquote fuel quoted
      bracedParts fuel quoted (part :: found)
    | c :: _ => do drop 1; bracedParts fuel quoted (.chars [c] quoted :: found)

/-- The parts of an arithmetic expression, up to its two closing parentheses.  `depth` counts the
ones that are open inside. -/
def arithmeticParts : Nat → Nat → List Part → Reads (List Part)
  | 0, _, _ => failure
  | fuel + 1, depth, found => do
    match ← rest with
    | [] => failure
    | ')' :: ')' :: _ =>
      if depth = 0 then do drop 2; return found.reverse
      else do drop 1; arithmeticParts fuel (depth - 1) (.chars [')'] true :: found)
    | '$' :: _ => do
      let part ← dollar fuel true
      arithmeticParts fuel depth (part :: found)
    | '\x60' :: _ => do
      let part ← backquote fuel true
      arithmeticParts fuel depth (part :: found)
    | '"' :: _ => do drop 1; arithmeticParts fuel depth found
    | c :: _ => do
      drop 1
      let depth := if c = '(' then depth + 1 else if c = ')' then depth - 1 else depth
      arithmeticParts fuel depth (.chars [c] true :: found)

/-- Commands between grave accents.  Inside, a backslash before a grave accent, a backslash or a
dollar sign is dropped. -/
def backquote : Nat → Bool → Reads Part
  | 0, _ => failure
  | fuel + 1, quoted => do
    drop 1
    let cs ← rest
    let rec cut : Octets → Octets → Option (Octets × Octets)
      | _, [] => none
      | found, '\x60' :: behind => some (found.reverse, behind)
      | found, '\\' :: c :: behind =>
        if c = '\x60' ∨ c = '\\' ∨ c = '$' ∨ (quoted ∧ c = '"') then cut (c :: found) behind
        else cut (c :: '\\' :: found) behind
      | found, c :: behind => cut (c :: found) behind
    match cut [] cs with
    | none => failure
    | some (text, behind) =>
      let s ← get
      match (commands fuel []).run { s with rest := text, pending := [] } with
      | some (body, inner) =>
        if inner.rest.isEmpty then
          set { s with
            rest := behind, nextId := inner.nextId, texts := inner.texts, line := inner.line }
          return .output body quoted
        else failure
      | none => failure

/-- A line end, behind which the texts stand that the line has announced. -/
def lineEnd : Nat → Reads Unit
  | 0 => failure
  | fuel + 1 => do
    drop 1
    modify fun s => { s with line := s.line + 1 }
    let pending := (← get).pending
    modify fun s => { s with pending := [] }
    hereTexts fuel pending

/-- Read announced texts. -/
def hereTexts : Nat → List PendingText → Reads Unit
  | 0, _ => failure
  | _, [] => return ()
  | fuel + 1, p :: pending => do
    let s ← get
    let (text, behind, n) := hereLines p (s.rest.length + 1) s.rest
    let parts ←
      if p.quoted then pure [Part.chars text true]
      else
        match (quotedParts fuel none []).run { s with rest := text, pending := [] } with
        | some (parts, inner) => do
          set { s with nextId := inner.nextId, texts := inner.texts }
          pure parts
        | none => failure
    modify fun s => { s with
      rest := behind, line := s.line + n, texts := s.texts ++ [⟨p.id, parts⟩] }
    hereTexts fuel pending

/-- Drop blanks, comments and line ends. -/
def skipLines : Nat → Reads Unit
  | 0 => failure
  | fuel + 1 => do
    skipBlanks (← rest).length
    if (← peek?) = some '\n' then lineEnd fuel; skipLines fuel else return ()

/-- Commands up to the end, a closing parenthesis, the end of a case, or one of the given words. -/
def commands : Nat → List String → Reads (List Command)
  | 0, _ => failure
  | fuel + 1, stops => do
    skipLines fuel
    let raw ← rawWord
    let cs ← rest
    let atStop := stops.any (·.toList = raw) && !raw.isEmpty
    if cs.isEmpty || cs.head? = some ')' || [';', ';'].isPrefixOf cs || atStop then return []
    else
      let c ← chainOf fuel
      let c ← separator fuel c
      return c :: (← commands fuel stops)

/-- What separates a command from the next one; an ampersand puts it into the background. -/
def separator : Nat → Command → Reads Command
  | 0, _ => failure
  | fuel + 1, c => do
    skipBlanks (← rest).length
    match ← rest with
    | '&' :: _ => do drop 1; return .background c
    | ';' :: ';' :: _ => return c
    | ';' :: _ => do drop 1; return c
    | '\n' :: _ => do lineEnd fuel; return c
    | [] => return c
    | ')' :: _ => return c
    | _ => failure

/-- Pipelines joined by `&&` and `||`. -/
def chainOf : Nat → Reads Command
  | 0 => failure
  | fuel + 1 => do
    let first ← pipeline fuel
    chainRest fuel first

/-- What is joined to a pipeline. -/
def chainRest : Nat → Command → Reads Command
  | 0, _ => failure
  | fuel + 1, first => do
    skipBlanks (← rest).length
    if ← eat ['&', '&'] then
      skipLines fuel
      let second ← pipeline fuel
      chainRest fuel (.chain first true second)
    else if ← eat ['|', '|'] then
      skipLines fuel
      let second ← pipeline fuel
      chainRest fuel (.chain first false second)
    else return first

/-- Commands joined by pipes. -/
def pipeline : Nat → Reads Command
  | 0 => failure
  | fuel + 1 => do
    skipBlanks (← rest).length
    let negated ← eatWord "!"
    let stages ← stagesOf fuel
    match negated, stages with
    | false, [c] => return c
    | _, _ => return .pipeline negated stages

/-- The commands of a pipeline. -/
def stagesOf : Nat → Reads (List Command)
  | 0 => failure
  | fuel + 1 => do
    let c ← command fuel
    skipBlanks (← rest).length
    let isPipe := match ← rest with
      | '|' :: '|' :: _ => false
      | '|' :: _ => true
      | _ => false
    if isPipe then
      drop 1
      skipLines fuel
      return c :: (← stagesOf fuel)
    else return [c]

/-- One command. -/
def command : Nat → Reads Command
  | 0 => failure
  | fuel + 1 => do
    skipBlanks (← rest).length
    let raw ← rawWord
    if (← peek?) = some '(' then
      drop 1
      let body ← commands fuel []
      expect [')']
      return .subshell body (← redirects fuel)
    else if raw = ['\x7b'] then
      drop 1
      let body ← commands fuel ["\x7d"]
      expectWord "\x7d"
      return .group body (← redirects fuel)
    else if raw = "if".toList then
      drop 2
      branchOf fuel
    else if raw = "while".toList ∨ raw = "until".toList then
      drop 5
      let condition ← commands fuel ["do"]
      expectWord "do"
      let body ← commands fuel ["done"]
      expectWord "done"
      return .loop (raw = "until".toList) condition body (← redirects fuel)
    else if raw = "for".toList then
      drop 3
      forOf fuel
    else if raw = "case".toList then
      drop 4
      caseOf fuel
    else if reservedWords.contains raw then failure
    else
      let blank := fun c => c = ' ' || c = '\t'
      let behind := ((← rest).drop raw.length).dropWhile blank
      if isName raw ∧ behind.head? = some '(' then
        match (behind.drop 1).dropWhile blank with
        | ')' :: cs =>
          modify fun s => { s with rest := cs }
          skipLines fuel
          return .define raw (← command fuel)
        | _ => failure
      else simpleOf fuel (← get).line [] [] []

/-- A conditional command behind its first word. -/
def branchOf : Nat → Reads Command
  | 0 => failure
  | fuel + 1 => do
    let condition ← commands fuel ["then"]
    expectWord "then"
    let yes ← commands fuel ["elif", "else", "fi"]
    if ← eatWord "elif" then
      let no ← branchOf fuel
      return .branch condition yes [no] []
    else if ← eatWord "else" then
      let no ← commands fuel ["fi"]
      expectWord "fi"
      return .branch condition yes no (← redirects fuel)
    else
      expectWord "fi"
      return .branch condition yes [] (← redirects fuel)

/-- A loop over words behind its first word. -/
def forOf : Nat → Reads Command
  | 0 => failure
  | fuel + 1 => do
    skipBlanks (← rest).length
    let name ← rawWord
    if !isName name then failure
    drop name.length
    skipLines fuel
    let words ←
      if ← eatWord "in" then
        let ws ← wordsOf fuel
        pure (some ws)
      else pure none
    skipBlanks (← rest).length
    let _ ← eat [';']
    skipLines fuel
    expectWord "do"
    let body ← commands fuel ["done"]
    expectWord "done"
    return .each name words body (← redirects fuel)

/-- Words up to something that is none. -/
def wordsOf : Nat → Reads (List (List Part))
  | 0 => failure
  | fuel + 1 => do
    skipBlanks (← rest).length
    match ← rest with
    | [] => return []
    | c :: _ =>
      if endsWord c then return []
      else
        let w ← wordParts fuel []
        return w :: (← wordsOf fuel)

/-- A selection by patterns behind its first word. -/
def caseOf : Nat → Reads Command
  | 0 => failure
  | fuel + 1 => do
    skipBlanks (← rest).length
    let word ← wordParts fuel []
    skipLines fuel
    expectWord "in"
    let cases ← casesOf fuel
    return .select word cases (← redirects fuel)

/-- The cases of a selection, up to its last word. -/
def casesOf : Nat → Reads (List (List (List Part) × List Command))
  | 0 => failure
  | fuel + 1 => do
    skipLines fuel
    if ← eatWord "esac" then return []
    else
      let _ ← eat ['(']
      let patterns ← patternsOf fuel
      expect [')']
      let body ← commands fuel ["esac"]
      skipLines fuel
      if ← eat [';', ';'] then return (patterns, body) :: (← casesOf fuel)
      else
        expectWord "esac"
        return [(patterns, body)]

/-- The patterns of a case. -/
def patternsOf : Nat → Reads (List (List Part))
  | 0 => failure
  | fuel + 1 => do
    skipBlanks (← rest).length
    let w ← wordParts fuel []
    skipBlanks (← rest).length
    if ← eat ['|'] then return w :: (← patternsOf fuel) else return [w]

/-- A redirection, if one follows. -/
def redirect? : Nat → Reads (Option Redirect)
  | 0 => failure
  | fuel + 1 => do
    skipBlanks (← rest).length
    let cs ← rest
    let digits := cs.takeWhile Char.isDigit
    let channel? := if digits.isEmpty then none else (String.ofList digits).toNat?
    match cs.drop digits.length with
    | '<' :: '<' :: '-' :: _ => do
      drop (digits.length + 3)
      hereOf fuel (channel?.getD 0) true
    | '<' :: '<' :: _ => do
      drop (digits.length + 2)
      hereOf fuel (channel?.getD 0) false
    | '<' :: '&' :: _ => do
      drop (digits.length + 2)
      targetOf fuel (channel?.getD 0) .duplicate
    | '<' :: '>' :: _ => do
      drop (digits.length + 2)
      targetOf fuel (channel?.getD 0) .both
    | '<' :: _ => do
      drop (digits.length + 1)
      targetOf fuel (channel?.getD 0) .input
    | '>' :: '>' :: _ => do
      drop (digits.length + 2)
      targetOf fuel (channel?.getD 1) .append
    | '>' :: '&' :: _ => do
      drop (digits.length + 2)
      targetOf fuel (channel?.getD 1) .duplicate
    | '>' :: '|' :: _ => do
      drop (digits.length + 2)
      targetOf fuel (channel?.getD 1) .output
    | '>' :: _ => do
      drop (digits.length + 1)
      targetOf fuel (channel?.getD 1) .output
    | _ => return none

/-- The target of a redirection. -/
def targetOf : Nat → Nat → RedirectKind → Reads (Option Redirect)
  | 0, _, _ => failure
  | fuel + 1, channel, kind => do
    skipBlanks (← rest).length
    let w ← wordParts fuel []
    if w.isEmpty then failure
    return some (.mk channel kind w)

/-- The delimiter of a text that follows in the script. -/
def hereOf : Nat → Nat → Bool → Reads (Option Redirect)
  | 0, _, _ => failure
  | fuel + 1, channel, stripTabs => do
    skipBlanks (← rest).length
    let w ← wordParts fuel []
    if w.isEmpty then failure
    let pieces := w.map fun p => match p with
      | .chars cs quoted => (cs, quoted)
      | _ => ([], true)
    let s ← get
    let announced : PendingText :=
      { id := s.nextId, delimiter := pieces.flatMap (·.1), stripTabs, quoted := pieces.any (·.2) }
    set { s with nextId := s.nextId + 1, pending := s.pending ++ [announced] }
    return some (.mk channel (.here s.nextId) [])

/-- Redirections up to something that is none. -/
def redirects : Nat → Reads (List Redirect)
  | 0 => failure
  | fuel + 1 => do
    match ← redirect? fuel with
    | some r => return r :: (← redirects fuel)
    | none => return []

/-- A simple command: assignments, words and redirections, latest first. -/
def simpleOf : Nat → Nat → List (Octets × List Part) → List (List Part) → List Redirect →
    Reads Command
  | 0, _, _, _, _ => failure
  | fuel + 1, line, assignments, words, found => do
    match ← redirect? fuel with
    | some r => simpleOf fuel line assignments words (r :: found)
    | none => do
      let cs ← rest
      let done := match cs with
        | [] => true
        | c :: _ => endsWord c
      if done then
        if assignments.isEmpty && words.isEmpty && found.isEmpty then failure
        else return .simple line assignments.reverse words.reverse found.reverse
      else
        let name := cs.takeWhile isNameChar
        let isAssignment := words.isEmpty && isName name && (cs.drop name.length).head? = some '='
        if isAssignment then
          drop (name.length + 1)
          let w ← wordParts fuel []
          simpleOf fuel line ((name, w) :: assignments) words found
        else
          let w ← wordParts fuel []
          simpleOf fuel line assignments (w :: words) found

end

/-- The commands of one line. -/
def lineOf : Nat → Reads (List Command)
  | 0 => failure
  | fuel + 1 => do
    skipBlanks (← rest).length
    match ← rest with
    | [] => return []
    | '\n' :: _ => do lineEnd fuel; return []
    | _ => do
      let c ← chainOf fuel
      skipBlanks (← rest).length
      match ← rest with
      | '&' :: _ => do drop 1; return .background c :: (← lineOf fuel)
      | ';' :: ';' :: _ => failure
      | ';' :: _ => do drop 1; return c :: (← lineOf fuel)
      | '\n' :: _ => do lineEnd fuel; return [c]
      | [] => return [c]
      | _ => failure

/-- The lines of a script, up to the first that cannot be read.  `fuel` bounds their number, `depth`
the steps on one of them. -/
def linesOf (depth : Nat) : Nat → ReaderState → List Command → Script
  | 0, s, found => ⟨found, s.texts, none⟩
  | fuel + 1, s, found =>
    if s.rest.isEmpty then ⟨found, s.texts, none⟩
    else
      match (lineOf depth).run s with
      | some (cs, s) => linesOf depth fuel s (found ++ cs)
      | none => ⟨found, s.texts, some s.line⟩

/-- Read a script.  Its texts are numbered from `firstId` on. -/
def Script.read (text : Octets) (firstId : Nat) : Script :=
  linesOf (20 * text.length + 100) (text.length + 1) { rest := text, nextId := firstId } []

end SourceFormat.Shell
