import SourceFormat.Shell.Utility.Text

/-!
# Tests

`test`, also spelled `[`, looks at files, texts and numbers.  With up to four arguments their number
decides how they are read; beyond that they are an expression with `!`, `-a`, `-o` and parentheses.
-/

namespace SourceFormat.Shell.Utility

/-- Why a test could not be made. -/
inductive TestError where
  | badNumber (text : Octets)
  | unexpected (text : Octets)
  | missing (text : Octets)

/-- The words for it. -/
def TestError.words : TestError → Octets
  | badNumber t => octets "Illegal number: " ++ t
  | unexpected t => t ++ octets ": unexpected operator"
  | missing t => t ++ octets ": missing argument"

/-- A whole number. -/
def integer? (cs : Octets) : Option Int :=
  let cs := (cs.dropWhile fun c => c = ' ' || c = '\t')
  let cs := (cs.reverse.dropWhile fun c => c = ' ' || c = '\t').reverse
  let (negative, ds) := match cs with
    | '-' :: ds => (true, ds)
    | '+' :: ds => (false, ds)
    | ds => (false, ds)
  if ds.isEmpty || !ds.all Char.isDigit then none
  else some (if negative then -(decimal ds : Int) else (decimal ds : Int))

/-- Whether a word is an operator with one operand. -/
def isUnary (cs : Octets) : Bool :=
  match cs with
  | ['-', c] => "bcdefghknprstuwxzLOGS".toList.contains c
  | _ => false

/-- Whether a word is an operator with two operands. -/
def isBinary (cs : Octets) : Bool :=
  (["=", "!=", "<", ">", "==", "-eq", "-ne", "-lt", "-le", "-gt", "-ge", "-nt", "-ot", "-ef"].map
    String.toList).contains cs

/-- A test with one operand. -/
def unaryTest (t : FileTree) (op : Char) (a : Octets) : Except TestError Bool :=
  let node := (t.find (pathOf a)).toOption.map (·.2)
  match op with
  | 'z' => .ok a.isEmpty
  | 'n' => .ok !a.isEmpty
  | 'f' => .ok ((node.map Node.isFile).getD false)
  | 'd' => .ok (node = some .directory)
  | 'e' | 'r' | 'w' => .ok node.isSome
  | 's' =>
    .ok (match node with
      | some (.file contents _) => !contents.isEmpty
      | some .directory => true
      | some (.utility _) => true
      | _ => false)
  | 'x' =>
    .ok (match node with
      | some (.file _ executable) => executable
      | some .directory => true
      | some (.utility _) => true
      | _ => false)
  | 'c' =>
    .ok (match node with
      | some (.device _) => true
      | _ => false)
  | 't' =>
    match integer? a with
    | some _ => .ok false
    | none => .error (.badNumber a)
  | _ => .ok false

/-- A test with two operands. -/
def binaryTest (t : FileTree) (op a b : Octets) : Except TestError Bool := do
  let number := fun (cs : Octets) =>
    match integer? cs with
    | some n => Except.ok n
    | none => Except.error (TestError.badNumber cs)
  match String.ofList op with
  | "=" | "==" => .ok (a = b)
  | "!=" => .ok (a ≠ b)
  | "<" => .ok (decide (String.ofList a < String.ofList b))
  | ">" => .ok (decide (String.ofList b < String.ofList a))
  | "-eq" => return decide ((← number a) = (← number b))
  | "-ne" => return decide ((← number a) ≠ (← number b))
  | "-lt" => return decide ((← number a) < (← number b))
  | "-le" => return decide ((← number a) ≤ (← number b))
  | "-gt" => return decide ((← number b) < (← number a))
  | "-ge" => return decide ((← number b) ≤ (← number a))
  | "-ef" =>
    let place := fun (cs : Octets) => ((t.find (pathOf cs)).toOption.map (·.1))
    .ok (place a = place b && (place a).isSome)
  | _ => .ok false

mutual

/-- Alternatives. -/
def testEither (t : FileTree) : Nat → List Octets → Except TestError (Bool × List Octets)
  | 0, args => .ok (false, args)
  | fuel + 1, args => do
    let (a, rest) ← testBoth t fuel args
    match rest with
    | ['-', 'o'] :: rest =>
      let (b, rest) ← testEither t fuel rest
      return (a || b, rest)
    | _ => return (a, rest)

/-- Tests that must all hold. -/
def testBoth (t : FileTree) : Nat → List Octets → Except TestError (Bool × List Octets)
  | 0, args => .ok (false, args)
  | fuel + 1, args => do
    let (a, rest) ← testOne t fuel args
    match rest with
    | ['-', 'a'] :: rest =>
      let (b, rest) ← testBoth t fuel rest
      return (a && b, rest)
    | _ => return (a, rest)

/-- One test. -/
def testOne (t : FileTree) : Nat → List Octets → Except TestError (Bool × List Octets)
  | 0, args => .ok (false, args)
  | fuel + 1, args =>
    match args with
    | [] => .error (.missing [])
    | ['!'] :: rest@(_ :: _) => do
      let (a, rest) ← testOne t fuel rest
      return (!a, rest)
    | ['('] :: rest@(_ :: _) => do
      let (a, rest) ← testEither t fuel rest
      match rest with
      | [')'] :: rest => return (a, rest)
      | _ => .error (.missing [')'])
    | a :: op :: b :: rest =>
      if isBinary op then do
        return (← binaryTest t op a b, rest)
      else if isUnary a then do
        return (← unaryTest t (a.getD 1 'n') op, b :: rest)
      else .ok (!a.isEmpty, op :: b :: rest)
    | [a, b] =>
      if isUnary a then do
        return (← unaryTest t (a.getD 1 'n') b, [])
      else .ok (!a.isEmpty, [b])
    | [a] => .ok (!a.isEmpty, [])

end

/-- A test, by the number of its arguments. -/
def testOf (t : FileTree) (args : List Octets) : Except TestError Bool :=
  let general := fun (_ : Unit) => do
    let (a, rest) ← testEither t (2 * args.length + 4) args
    match rest with
    | [] => Except.ok a
    | _ => .error (.unexpected (args.getD (args.length - rest.length - 1) []))
  match args with
  | [] => .ok false
  | [a] => .ok !a.isEmpty
  | [['!'], a] => .ok a.isEmpty
  | [['!'], a, b] => if isBinary a then binaryTest t a ['!'] b else general ()
  | [a, op, b] => if isBinary op then binaryTest t op a b else general ()
  | _ => general ()

/-- Make a test; `bracketed` is for the spelling that a closing bracket ends. -/
def test (bracketed : Bool) (args : List Octets) : Act Nat := do
  let name := if bracketed then "[" else "test"
  let args? := if bracketed then
      (if args.getLast? = some [']'] then some args.dropLast else none)
    else some args
  match args? with
  | none =>
    grumble (octets "[: missing ]")
    return 2
  | some args =>
    match testOf (← files) args with
    | .ok true => return 0
    | .ok false => return 1
    | .error e =>
      grumble (octets name ++ octets ": " ++ e.words)
      return 2

end SourceFormat.Shell.Utility
