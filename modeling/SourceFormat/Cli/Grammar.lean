/-!
# Command lines

The arguments of a program are options, flags and operands.  An option is written `--name value`,
`--name=value` or, if it has a letter, `-n value`, `-nvalue` or `-n=value`; a flag is `--name` or
`-n`, and letters may be joined behind one hyphen as long as all but the last are flags.  Behind `--`
everything is an operand.  A value that begins with a hyphen has to be joined to its option, except
for the hyphen alone.

Every option and flag may be given once.  What is asked for by `--help` or `--version` counts from
where it stands: mistakes behind it are not looked at.
-/

namespace SourceFormat.Cli

/-- An option, or a flag. -/
structure OptionSpec where
  name : String
  letter : Option Char := none
  /-- How the value is called in the help text; none for a flag. -/
  value : Option String := none
  /-- Whether the empty text is a value. -/
  allowsEmpty : Bool := false
  isRequired : Bool := false
  help : String

/-- Whether an option takes a value. -/
def OptionSpec.takesValue (o : OptionSpec) : Bool := o.value.isSome

/-- An operand. -/
structure OperandSpec where
  name : String

/-- A command: what may and what must stand behind it. -/
structure CommandSpec where
  name : String
  about : String
  options : List OptionSpec
  /-- They must all be there, and none may be empty. -/
  operands : List OperandSpec

/-- What was given behind a command. -/
structure Given where
  /-- The options with their values, latest first; a flag's value is empty. -/
  options : List (String × String) := []
  /-- The operands, latest first. -/
  operands : List String := []

namespace Given

/-- The value of an option. -/
def value? (g : Given) (name : String) : Option String :=
  (g.options.find? (·.1 = name)).map (·.2)

/-- Whether a flag was given. -/
def has (g : Given) (name : String) : Bool := (g.value? name).isSome

end Given

/-- Why arguments are not taken. -/
inductive Refusal where
  /-- They are none that the program knows. -/
  | usage
  | help
  | version
  deriving Repr, DecidableEq

/-- What arguments are read against. -/
structure Expected where
  options : List OptionSpec
  operands : List OperandSpec
  /-- Whether the version may be asked for. -/
  hasVersion : Bool

namespace Expected

/-- The option of a name. -/
def named? (x : Expected) (name : String) : Option OptionSpec :=
  x.options.find? (·.name = name)

/-- The option of a letter. -/
def lettered? (x : Expected) (c : Char) : Option OptionSpec :=
  x.options.find? (·.letter = some c)

/-- Take down an option with its value. -/
def put (g : Given) (o : OptionSpec) (value : String) : Except Refusal Given :=
  if g.has o.name then .error .usage
  else if o.takesValue && value.isEmpty && !o.allowsEmpty then .error .usage
  else .ok { g with options := (o.name, value) :: g.options }

/-- Take down an operand. -/
def putOperand (x : Expected) (g : Given) (value : String) : Except Refusal Given :=
  if value.isEmpty ∨ x.operands.length ≤ g.operands.length then .error .usage
  else .ok { g with operands := value :: g.operands }

/-- Whether an argument can be a value of its own. -/
def isValue (a : String) : Bool := a = "-" || a.toList.head? ≠ some '-'

/-- Take down an option whose value is the next argument, and say what follows. -/
def putNext (g : Given) (o : OptionSpec) : List String → Except Refusal (Given × List String)
  | v :: rest => if isValue v then (put g o v).map fun g => (g, rest) else .error .usage
  | [] => .error .usage

/-- Read the letters behind a hyphen. -/
def letters (x : Expected) (g : Given) (rest : List String) :
    List Char → Except Refusal (Given × List String)
  | [] => .ok (g, rest)
  | c :: cs =>
    match x.lettered? c with
    | some o =>
      if o.takesValue then
        match cs with
        | [] => putNext g o rest
        | '=' :: v => (put g o (String.ofList v)).map fun g => (g, rest)
        | v => (put g o (String.ofList v)).map fun g => (g, rest)
      else (put g o "").bind fun g => letters x g rest cs
    | none =>
      if c = 'h' then .error .help
      else if c = 'V' ∧ x.hasVersion then .error .version
      else .error .usage

/-- Read what stands behind two hyphens. -/
def long (x : Expected) (g : Given) (rest : List String) (cs : List Char) :
    Except Refusal (Given × List String) :=
  let name := String.ofList (cs.takeWhile (· ≠ '='))
  let joined := (cs.dropWhile (· ≠ '=')).tail?
  match x.named? name with
  | some o =>
    if o.takesValue then
      match joined with
      | some v => (put g o (String.ofList v)).map fun g => (g, rest)
      | none => putNext g o rest
    else if joined.isSome then .error .usage
    else (put g o "").map fun g => (g, rest)
  | none =>
    if joined.isSome then .error .usage
    else if name = "help" then .error .help
    else if name = "version" ∧ x.hasVersion then .error .version
    else .error .usage

/-- Read arguments up to their end, or up to an operand that `stopsAt` takes: what was given, and
the arguments from that operand on.  `fuel` is more than their number. -/
def read (x : Expected) (stopsAt : String → Bool) :
    Nat → Given → List String → Except Refusal (Given × List String)
  | 0, _, _ => .error .usage
  | _, g, [] => .ok (g, [])
  | fuel + 1, g, a :: rest =>
    match a.toList with
    | ['-', '-'] => (rest.foldlM x.putOperand g).map fun g => (g, [])
    | '-' :: '-' :: cs => (x.long g rest cs).bind fun (g, rest) => x.read stopsAt fuel g rest
    | '-' :: c :: cs =>
      (x.letters g rest (c :: cs)).bind fun (g, rest) => x.read stopsAt fuel g rest
    | _ =>
      if stopsAt a then .ok (g, a :: rest)
      else (x.putOperand g a).bind fun g => x.read stopsAt fuel g rest

/-- Whether everything that must be there was given. -/
def isComplete (x : Expected) (g : Given) : Bool :=
  g.operands.length = x.operands.length
    && x.options.all fun o => !o.isRequired || g.has o.name

end Expected

end SourceFormat.Cli
