import SourceFormat.Text.Utf8

/-!
# Shell commands

Formatters are often small shell scripts, and what such a script does is part of what a run of it
does.  A script is a list of commands; the words of a command are kept in parts, because most parts
get their meaning only when the command is run.

A shell works on bytes, not on text.  Here each byte is a character below 256, which keeps the
literals readable.
-/

namespace SourceFormat.Shell

/-- Bytes, one character for each. -/
abbrev Octets := List Char

/-- The characters of bytes. -/
def ofBytes (bs : Bytes) : Octets := bs.map fun b => Char.ofNat b.toNat

/-- The bytes of characters. -/
def toBytes (cs : Octets) : Bytes := cs.map fun c => UInt8.ofNat c.toNat

/-- The bytes of a text, one character for each. -/
def octets (s : String) : Octets := ofBytes (Utf8.encode s)

/-- What happens to the value of a parameter. -/
inductive ParamOp where
  | plain
  /-- The other word, if the parameter is unset; also if it is empty and `orEmpty`. -/
  | default (orEmpty : Bool)
  | assign (orEmpty : Bool)
  | alternative (orEmpty : Bool)
  | require (orEmpty : Bool)
  /-- Without a beginning that matches the other word. -/
  | dropFront (longest : Bool)
  /-- Without an end that matches the other word. -/
  | dropBack (longest : Bool)
  | length
  deriving Repr, DecidableEq

/-- Whether the other word is a pattern.  It stays one between quotes. -/
def ParamOp.takesPattern : ParamOp → Bool
  | dropFront _ | dropBack _ => true
  | _ => false

/-- How a channel is redirected. -/
inductive RedirectKind where
  | input
  | output
  | append
  | both
  /-- To what another channel goes to. -/
  | duplicate
  /-- From a text in the script, by its number. -/
  | here (id : Nat)
  deriving Repr, DecidableEq

mutual

/-- A part of a word. -/
inductive Part where
  /-- Characters; `quoted` ones stand for nothing but themselves. -/
  | chars (cs : Octets) (quoted : Bool)
  | param (name : Octets) (op : ParamOp) (other : List Part) (quoted : Bool)
  /-- The output of commands. -/
  | output (body : List Command) (quoted : Bool)
  | arithmetic (expression : List Part) (quoted : Bool)

/-- A redirection. -/
inductive Redirect where
  | mk (channel : Nat) (kind : RedirectKind) (target : List Part)

/-- A command. -/
inductive Command where
  | simple (line : Nat) (assignments : List (Octets × List Part)) (words : List (List Part))
      (redirects : List Redirect)
  | pipeline (negated : Bool) (stages : List Command)
  /-- The second one only if the first succeeds, or only if it fails. -/
  | chain (first : Command) (onSuccess : Bool) (second : Command)
  | background (body : Command)
  | subshell (body : List Command) (redirects : List Redirect)
  | group (body : List Command) (redirects : List Redirect)
  | branch (condition : List Command) (yes no : List Command) (redirects : List Redirect)
  | loop (untilTrue : Bool) (condition body : List Command) (redirects : List Redirect)
  /-- Over the words given, or over the arguments. -/
  | each (name : Octets) (words : Option (List (List Part))) (body : List Command)
      (redirects : List Redirect)
  | select (word : List Part) (cases : List (List (List Part) × List Command))
      (redirects : List Redirect)
  | define (name : Octets) (body : Command)

end

instance : Inhabited Command := ⟨.group [] []⟩

/-- A text in a script that a redirection reads from. -/
structure HereText where
  id : Nat
  parts : List Part

/-- A script, as far as it could be read. -/
structure Script where
  /-- The commands, line by line. -/
  commands : List Command
  texts : List HereText
  /-- The line on which reading failed. -/
  failedAt : Option Nat

end SourceFormat.Shell
