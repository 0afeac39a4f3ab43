import SourceFormat.Shell.Utility.Text

/-!
# Utilities that pass bytes on

They read files, or standard input where no file is named, and write what they make of it.
-/

namespace SourceFormat.Shell.Utility

/-- A complaint of a utility about a file. -/
def blame (utility : String) (file : Octets) (e : SystemError) : Act Unit :=
  complain (octets utility ++ octets ": " ++ file ++ octets ": " ++ reason e)

/-- Pass on everything from standard input. -/
def pass : Nat → Act Unit
  | 0 => return ()
  | fuel + 1 => do
    let bs ← receive 0 blockSize
    if bs.isEmpty then return ()
    else
      let _ ← emit 1 bs
      pass fuel

/-- What a node has to read; a device that never ends is read as far as asked. -/
def nodeBytes (n : Node) (most : Nat) : Except SystemError Bytes :=
  match n with
  | .file contents _ => .ok contents
  | .device .zero | .device .full => .ok (List.replicate most 0)
  | .device .null | .utility _ => .ok []
  | .directory => .error .isDirectory

/-- The bytes of a file; a hyphen is standard input.  At most so many of a device that never ends.
-/
def contentsOf (file : Octets) (most : Nat) : Act (Except SystemError Bytes) := do
  if file = ['-'] then return .ok (← receiveAll 0 manyBlocks [])
  else
    let t ← files
    return (t.find (pathOf file)).bind fun (_, n) => nodeBytes n most

/-- How much is read of a device that never ends. -/
def endless : Nat := 1000000

/-- Write a block again and again, for ever: after a great many times nobody sees the difference. -/
def writeForEver (block : Bytes) : Nat → Act Nat
  | 0 => hang
  | n + 1 => do
    if ← emit 1 block then writeForEver block n else return 1

/-- Whether a file never ends. -/
def neverEnds (file : Octets) : Act Bool := do
  return match (← files).find (pathOf file) with
    | .ok (_, .device d) => d = .zero ∨ d = .full
    | _ => false

/-- Pass on files. -/
def cat (args : List Octets) : Act Nat := do
  let args := args.filter fun a => a.length < 2 || a.head? ≠ some '-'
  let args := if args.isEmpty then [['-']] else args
  let mut status := 0
  for a in args do
    if a = ['-'] then pass manyBlocks
    else if ← neverEnds a then
      let _ ← writeForEver (List.replicate 8192 0) 400
    else
      match ← contentsOf a endless with
      | .ok bs =>
        let _ ← emit 1 bs
      | .error e =>
        blame "cat" a e
        status := 1
  return status

/-- The bytes of all files named, or of standard input.  The flag says whether all could be read. -/
def inputs (utility : String) (args : List Octets) : Act (Bytes × Bool) := do
  if args.isEmpty then return (← receiveAll 0 manyBlocks [], true)
  let mut found : List Bytes := []
  let mut ok := true
  for a in args do
    match ← contentsOf a endless with
    | .ok bs => found := bs :: found
    | .error e =>
      blame utility a e
      ok := false
  return (found.reverse.flatten, ok)

/-- Cut into lines, each with its line end if it has one. -/
def linesOf (bs : Octets) : List Octets :=
  let (found, current) := bs.foldl
    (fun (found, current) c =>
      if c = '\n' then (('\n' :: current).reverse :: found, []) else (found, c :: current))
    (([], []) : List Octets × Octets)
  (if current.isEmpty then found else current.reverse :: found).reverse

/-- A line without its line end. -/
def bare (line : Octets) : Octets :=
  if line.getLast? = some '\n' then line.dropLast else line

/-- Options of the form `-n 5`, `-n5` and `-5`: the letters with their values, and the rest. -/
def options (withValue : List Char) : Nat → List Octets → List (Char × Octets) × List Octets
  | 0, args => ([], args)
  | fuel + 1, args =>
    match args with
    | ['-', '-'] :: rest => ([], rest)
    | ('-' :: c :: cs) :: rest =>
      if c.isDigit then
        let (os, rest) := options withValue fuel rest
        (('n', c :: cs) :: os, rest)
      else if withValue.contains c then
        match cs, rest with
        | [], v :: rest =>
          let (os, rest) := options withValue fuel rest
          ((c, v) :: os, rest)
        | cs, rest =>
          let (os, rest) := options withValue fuel rest
          ((c, cs) :: os, rest)
      else
        match cs with
        | [] =>
          let (os, rest) := options withValue fuel rest
          ((c, []) :: os, rest)
        | cs =>
          let (os, rest) := options withValue fuel (('-' :: cs) :: rest)
          ((c, []) :: os, rest)
    | a :: rest =>
      let (os, rest) := options withValue fuel rest
      (os, a :: rest)
    | [] => ([], [])

/-- The options and operands of a utility. -/
def optionsOf (withValue : String) (args : List Octets) : List (Char × Octets) × List Octets :=
  options withValue.toList ((args.map (·.length)).foldl (· + ·) (2 * args.length + 1)) args

/-- Whether an option was given. -/
def given (os : List (Char × Octets)) (c : Char) : Bool := os.any (·.1 = c)

/-- The value of an option, the last one given. -/
def valueOf? (os : List (Char × Octets)) (c : Char) : Option Octets :=
  (os.reverse.find? (·.1 = c)).map (·.2)

/-- All values of an option. -/
def valuesOf (os : List (Char × Octets)) (c : Char) : List Octets :=
  (os.filter (·.1 = c)).map (·.2)

/-- A count with a unit. -/
def countOf (cs : Octets) : Nat :=
  let ds := cs.takeWhile Char.isDigit
  let unit := match cs.drop ds.length with
    | 'k' :: _ => 1024
    | 'K' :: _ => 1024
    | 'M' :: _ => 1048576
    | 'b' :: _ => 512
    | _ => 1
  decimal ds * unit

/-- Read exactly so many bytes from standard input, or as many as there are. -/
def receiveExactly : Nat → Nat → List Bytes → Act Bytes
  | 0, _, found => return found.reverse.flatten
  | fuel + 1, n, found => do
    if n = 0 then return found.reverse.flatten
    let bs ← receive 0 (min n blockSize)
    if bs.isEmpty then return found.reverse.flatten
    else receiveExactly fuel (n - bs.length) (bs :: found)

/-- Read block by block until there are so many line ends, or as much as there is. -/
def receiveLines : Nat → Nat → List Bytes → Act Bytes
  | 0, _, found => return found.reverse.flatten
  | fuel + 1, n, found => do
    if n = 0 then return found.reverse.flatten
    let bs ← receive 0 blockSize
    if bs.isEmpty then return found.reverse.flatten
    else receiveLines fuel (n - (ofBytes bs).count '\n') (bs :: found)

/-- How much of a beginning is wanted. -/
inductive Extent where
  | bytes (n : Nat)
  | lines (n : Nat)
  /-- All but the last so many lines. -/
  | butLines (n : Nat)
  /-- All but the last so many bytes. -/
  | butBytes (n : Nat)

/-- The extent that options ask for. -/
def Extent.ofOptions (os : List (Char × Octets)) : Extent :=
  match valueOf? os 'c', valueOf? os 'n' with
  | some ('-' :: v), _ => .butBytes (countOf v)
  | some v, _ => .bytes (countOf v)
  | none, some ('-' :: v) => .butLines (countOf v)
  | none, some v => .lines (countOf v)
  | none, none => .lines 10

/-- Cut off what is not wanted. -/
def Extent.cut (x : Extent) (bs : Bytes) : Bytes :=
  match x with
  | bytes n => bs.take n
  | lines n => toBytes ((linesOf (ofBytes bs)).take n).flatten
  | butLines n =>
    let ls := linesOf (ofBytes bs)
    toBytes (ls.take (ls.length - n)).flatten
  | butBytes n => bs.take (bs.length - n)

/-- Read no more of standard input than is needed. -/
def Extent.receive : Extent → Act Bytes
  | bytes n => receiveExactly manyBlocks n []
  | lines n => receiveLines manyBlocks n []
  | butLines _ | butBytes _ => receiveAll 0 manyBlocks []

/-- The line that says which file follows. -/
def banner (isFirst : Bool) (file : Octets) : Octets :=
  (if isFirst then [] else ['\n'])
    ++ octets "==> " ++ (if file = ['-'] then octets "standard input" else file) ++ octets " <==\n"

/-- A complaint about a file whose beginning or end was wanted. -/
def blameEnd (utility : String) (file : Octets) (e : SystemError) : Act Unit :=
  complain (octets utility ++
    (if e = .isDirectory then octets ": error reading '" ++ file ++ octets "': "
      else octets ": cannot open '" ++ file ++ octets "' for reading: ") ++ reason e)

/-- The beginning of files. -/
def head (args : List Octets) : Act Nat := do
  let (os, files) := optionsOf "cn" args
  let x := Extent.ofOptions os
  let files := if files.isEmpty then [['-']] else files
  let mut status := 0
  let mut isFirst := true
  for a in files do
    let found ← if a = ['-'] then do pure (.ok (← x.receive))
      else contentsOf a (match x with
        | .bytes n => n
        | _ => endless)
    match found with
    | .ok bs =>
      if (1 < files.length || given os 'v') && !given os 'q' then
        let _ ← say (banner isFirst a)
      isFirst := false
      let _ ← emit 1 (x.cut bs)
    | .error e =>
      blameEnd "head" a e
      status := 1
  return status

/-- The end of some bytes, as options ask for it. -/
def endOf (os : List (Char × Octets)) (bs : Bytes) : Bytes :=
  let ls := linesOf (ofBytes bs)
  match valueOf? os 'c', valueOf? os 'n' with
  | some ('+' :: v), _ => bs.drop (countOf v - 1)
  | some v, _ => bs.drop (bs.length - countOf (v.dropWhile (· = '-')))
  | none, some ('+' :: v) => toBytes (ls.drop (countOf v - 1)).flatten
  | none, some v => toBytes (ls.drop (ls.length - countOf (v.dropWhile (· = '-')))).flatten
  | none, none => toBytes (ls.drop (ls.length - 10)).flatten

/-- The end of files. -/
def tail (args : List Octets) : Act Nat := do
  let (os, files) := optionsOf "cn" args
  let files := if files.isEmpty then [['-']] else files
  let mut status := 0
  let mut isFirst := true
  for a in files do
    match ← contentsOf a endless with
    | .ok bs =>
      if (1 < files.length || given os 'v') && !given os 'q' then
        let _ ← say (banner isFirst a)
      isFirst := false
      let _ ← emit 1 (endOf os bs)
    | .error e =>
      blameEnd "tail" a e
      status := 1
  return status

/-- How many words there are. -/
def wordCount (cs : Octets) : Nat :=
  (cs.foldl (fun (n, inside) c =>
    if c = ' ' || ('\t' ≤ c && c ≤ '\r') then (n, false)
    else if inside then (n, true) else (n + 1, true)) (0, false)).1

/-- A number, filled up from the left. -/
def padLeft (width : Nat) (cs : Octets) : Octets :=
  List.replicate (width - cs.length) ' ' ++ cs

/-- The counts that were asked for. -/
def countsOf (os : List (Char × Octets)) (bs : Bytes) : List Nat :=
  let all := !(given os 'l' || given os 'w' || given os 'c' || given os 'm')
  (if all || given os 'l' then [(bs.filter (· = 0x0A)).length] else [])
    ++ (if all || given os 'w' then [wordCount (ofBytes bs)] else [])
    ++ (if given os 'm' then [bs.length] else [])
    ++ (if all || given os 'c' then [bs.length] else [])

/-- Count lines, words and bytes; behind several files stand the sums. -/
def wc (args : List Octets) : Act Nat := do
  let (os, operands) := optionsOf "" args
  let mut found : List (Octets × Bytes) := []
  let mut status := 0
  for a in (if operands.isEmpty then [['-']] else operands) do
    match ← contentsOf a endless with
    | .ok bs => found := (a, bs) :: found
    | .error e =>
      blame "wc" a e
      status := 1
  let rows := found.reverse.map fun (a, bs) =>
    (countsOf os bs, if operands.isEmpty then [] else ' ' :: a)
  let sums := rows.foldl (fun sums (counts, _) =>
    if sums.isEmpty then counts else List.zipWith (· + ·) sums counts) ([] : List Nat)
  let rows := if 1 < operands.length then rows ++ [(sums, octets " total")] else rows
  let total := (found.map fun (_, bs) => bs.length).foldl (· + ·) 0
  let isLone := rows.length = 1 && rows.all fun (counts, _) => counts.length = 1
  let width := if isLone then 1
    else if found.any fun (a, _) => a = ['-'] then 7
    else (toString total).length
  let _ ← say (rows.flatMap fun (counts, label) =>
    unwords (counts.map fun n => padLeft width (octets (toString n))) ++ label ++ ['\n'])
  return status

/-- The characters of a set for `tr`. -/
def translateSet : Nat → Octets → Octets
  | 0, _ => []
  | fuel + 1, cs =>
    match cs with
    | [] => []
    | '[' :: ':' :: rest =>
      let name := rest.takeWhile (· ≠ ':')
      let behind := rest.drop (name.length + 2)
      let members := match String.ofList name with
        | "lower" => (List.range 26).map fun i => Char.ofNat (97 + i)
        | "upper" => (List.range 26).map fun i => Char.ofNat (65 + i)
        | "digit" => (List.range 10).map fun i => Char.ofNat (48 + i)
        | "space" => ['\t', '\n', '\x0B', '\x0C', '\r', ' ']
        | "alpha" => (List.range 26).flatMap fun i => [Char.ofNat (65 + i), Char.ofNat (97 + i)]
        | "alnum" =>
          (List.range 10).map (fun i => Char.ofNat (48 + i))
            ++ (List.range 26).flatMap fun i => [Char.ofNat (65 + i), Char.ofNat (97 + i)]
        | _ => []
      members ++ translateSet fuel behind
    | '\\' :: c :: rest =>
      if (octalValue? c).isSome then
        let (n, rest) := octal 3 (c :: rest)
        byteChar n :: translateSet fuel rest
      else ((shortEscape? c).getD c) :: translateSet fuel rest
    | a :: '-' :: b :: rest =>
      if a ≤ b then
        (List.range (b.toNat - a.toNat + 1)).map (fun i => Char.ofNat (a.toNat + i))
          ++ translateSet fuel rest
      else a :: translateSet fuel ('-' :: b :: rest)
    | c :: rest => c :: translateSet fuel rest

/-- Squeeze runs of members of a set. -/
def squeeze (members : Octets) (cs : Octets) : Octets :=
  (cs.foldl (fun (found : Octets) c =>
    if members.contains c && found.head? = some c then found else c :: found) []).reverse

/-- Replace, delete or squeeze characters. -/
def tr (args : List Octets) : Act Nat := do
  let (os, operands) := optionsOf "" args
  let sets := operands.map fun s => translateSet (s.length + 1) s
  let first := sets.headD []
  let second := (sets.drop 1).headD []
  let complement := given os 'c' || given os 'C'
  let inFirst := fun c => first.contains c != complement
  let cs := ofBytes (← receiveAll 0 manyBlocks [])
  let last := second.getLast?.getD '?'
  let mapped :=
    if given os 'd' then cs.filter fun c => !inFirst c
    else if second.isEmpty then cs
    else cs.map fun c =>
      if complement then (if inFirst c then last else c)
      else
        match first.findIdx? (· = c) with
        | some i => (second[i]?).getD last
        | none => c
  let out :=
    if given os 's' then squeeze (if second.isEmpty then first else second) mapped else mapped
  let _ ← say out
  return 0

/-- Copy standard input to files and to standard output. -/
def tee (args : List Octets) : Act Nat := do
  let (os, operands) := optionsOf "" args
  let bs ← receiveAll 0 manyBlocks []
  let mut status := 0
  for a in operands do
    let r ← change fun t =>
      if given os 'a' then t.append (pathOf a) bs else t.write (pathOf a) bs
    match r with
    | .ok () => pure ()
    | .error e =>
      blame "tee" a e
      status := 1
  let _ ← emit 1 bs
  return status

/-- Whether one line comes before another. -/
def precedes (numeric reverse : Bool) (a b : Octets) : Bool :=
  let a := bare a
  let b := bare b
  let le :=
    if numeric then
      let (x, _) := numberOf (a.takeWhile fun c => c.isDigit || c = '-' || c = ' ')
      let (y, _) := numberOf (b.takeWhile fun c => c.isDigit || c = '-' || c = ' ')
      if x = y then decide (String.ofList a ≤ String.ofList b) else decide (x ≤ y)
    else decide (String.ofList a ≤ String.ofList b)
  if reverse then !le || a = b else le

/-- Drop repetitions of a line that follow it. -/
def dropRepeats (ls : List Octets) : List (Octets × Nat) :=
  (ls.foldl (fun (found : List (Octets × Nat)) l =>
    match found with
    | (m, n) :: rest => if m = l then (m, n + 1) :: rest else (l, 1) :: found
    | [] => [(l, 1)]) []).reverse

/-- Sort lines. -/
def sort (args : List Octets) : Act Nat := do
  let (os, operands) := optionsOf "kto" args
  let (bs, ok) ← inputs "sort" operands
  let ls := (linesOf (ofBytes bs)).map bare
  let sorted := ls.mergeSort (precedes (given os 'n') (given os 'r'))
  let sorted := if given os 'u' then (dropRepeats sorted).map (·.1) else sorted
  let _ ← say (sorted.flatMap (· ++ ['\n']))
  return if ok then 0 else 2

/-- Drop or count repeated lines. -/
def uniq (args : List Octets) : Act Nat := do
  let (os, operands) := optionsOf "" args
  let (bs, ok) ← inputs "uniq" operands
  let groups := dropRepeats ((linesOf (ofBytes bs)).map bare)
  let groups := if given os 'd' then groups.filter (1 < ·.2) else groups
  let groups := if given os 'u' then groups.filter (·.2 = 1) else groups
  let _ ← say (groups.flatMap fun (l, n) =>
    (if given os 'c' then padLeft 7 (octets (toString n)) ++ [' '] else []) ++ l ++ ['\n'])
  return if ok then 0 else 1

/-- Cut at a character. -/
def splitAtChar (d : Char) (cs : Octets) : List Octets :=
  let (found, current) := cs.foldl
    (fun (found, current) c =>
      if c = d then (current.reverse :: found, []) else (found, c :: current))
    (([], []) : List Octets × Octets)
  (current.reverse :: found).reverse

/-- Ranges of numbers from one on, such as `1,3-5,7-`. -/
def rangesOf (cs : Octets) : List (Nat × Option Nat) :=
  (splitAtChar ',' cs).map fun r =>
    match splitAtChar '-' r with
    | [a] => (decimal a, some (decimal a))
    | a :: b :: _ =>
      (if a.isEmpty then 1 else decimal a, if b.isEmpty then none else some (decimal b))
    | [] => (0, none)

/-- Whether a range holds a number. -/
def inRanges (rs : List (Nat × Option Nat)) (n : Nat) : Bool :=
  rs.any fun (low, high) => low ≤ n && (high.map fun h => decide (n ≤ h)).getD true

/-- Print parts of lines. -/
def cut (args : List Octets) : Act Nat := do
  let (os, operands) := optionsOf "dfcb" args
  let (bs, ok) ← inputs "cut" operands
  let ls := (linesOf (ofBytes bs)).map bare
  let out ←
    match valueOf? os 'f' with
    | some f => do
      let d := ((valueOf? os 'd').bind (·.head?)).getD '\t'
      let rs := rangesOf f
      pure (ls.map fun l =>
        if l.contains d then
          let fs := (splitAtChar d l).zipIdx.filter fun (_, i) => inRanges rs (i + 1)
          match fs.map (·.1) with
          | [] => []
          | x :: xs => x ++ xs.flatMap (d :: ·)
        else l)
    | none => do
      let rs := rangesOf (((valueOf? os 'c').orElse fun _ => valueOf? os 'b').getD [])
      pure (ls.map fun l =>
        (l.zipIdx.filter fun (_, i) => inRanges rs (i + 1)).map (·.1))
  let _ ← say (out.flatMap (· ++ ['\n']))
  return if ok then 0 else 1

/-- Print numbers in sequence. -/
def seq (args : List Octets) : Act Nat := do
  let numbers := args.map fun a => (numberOf a).1
  let (first, step, last) : Int × Int × Int := match numbers with
    | [b] => (1, 1, b)
    | [a, b] => (a, 1, b)
    | a :: s :: b :: _ => (a, s, b)
    | [] => (1, 1, 0)
  if step = 0 then return 1
  let count := if 0 < step then (last - first) / step + 1 else (first - last) / (-step) + 1
  let _ ← say ((List.range count.toNat).flatMap fun (i : Nat) =>
    octets (toString (first + step * (i : Int))) ++ ['\n'])
  return 0

/-- Print a line again and again. -/
def yes (args : List Octets) : Act Nat := do
  let line := (if args.isEmpty then ['y'] else unwords args) ++ ['\n']
  writeForEver (toBytes ((List.replicate (8192 / line.length + 1) line).flatten)) 400

/-- Print lines backwards. -/
def rev (args : List Octets) : Act Nat := do
  let (bs, ok) ← inputs "rev" args
  let _ ← say ((linesOf (ofBytes bs)).flatMap fun l =>
    if l.getLast? = some '\n' then l.dropLast.reverse ++ ['\n'] else l.reverse)
  return if ok then 0 else 1

/-- Print the lines in the opposite order. -/
def tac (args : List Octets) : Act Nat := do
  let (bs, ok) ← inputs "tac" args
  let _ ← say (linesOf (ofBytes bs)).reverse.flatten
  return if ok then 0 else 1

/-- Print bytes in hexadecimal, in the one form that scripts ask for. -/
def od (args : List Octets) : Act Nat := do
  let (_, operands) := optionsOf "Atvj" args
  let (bs, ok) ← inputs "od" operands
  let hex := fun (b : UInt8) =>
    let ds := Nat.toDigits 16 b.toNat
    ' ' :: (List.replicate (2 - ds.length) '0' ++ ds)
  let rec rows : Nat → Bytes → Octets
    | 0, _ => []
    | fuel + 1, bs =>
      if bs.isEmpty then [] else (bs.take 16).flatMap hex ++ '\n' :: rows fuel (bs.drop 16)
  let _ ← say (rows (bs.length + 1) bs)
  return if ok then 0 else 1

end SourceFormat.Shell.Utility
