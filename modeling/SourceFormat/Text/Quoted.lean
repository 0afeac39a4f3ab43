import SourceFormat.Text.Unprintable

/-!
# Quoted texts in messages

A text that is quoted in a message stands between double quotes.  The quote, the backslash and the
common controls have a spelling of two characters; any other character that would not be seen is
spelled `\u` and its number in braces; every other character, a single quote too, stands for
itself.
-/

namespace SourceFormat.Text

/-- The digits of a number in lower-case hexadecimal, without leading zeros. -/
def hexDigits (n : Nat) : String :=
  String.ofList (Nat.toDigits 16 n)

/-- One character inside a quoted text. -/
def quoteChar (c : Char) : String :=
  if c = '\x00' then "\\0"
  else if c = '\t' then "\\t"
  else if c = '\n' then "\\n"
  else if c = '\r' then "\\r"
  else if c = '"' then "\\\""
  else if c = '\\' then "\\\\"
  else if isUnprintable c then "\\u\x7b" ++ hexDigits c.toNat ++ "\x7d"
  else c.toString

/-- A text as it is quoted in messages. -/
def quote (s : String) : String :=
  "\"" ++ String.join (s.toList.map quoteChar) ++ "\""

end SourceFormat.Text
