/-!
# Bytes and the text they spell

Captured output, file contents and paths are bytes; everything the formatter's user reads is
text.  This module holds the one passage between the two.  `decode` never fails: it scans from
the left, keeps every well-formed character, and puts one U+FFFD in the place of every *maximal
broken piece* — the longest start of a well-formed character that is there, or one byte where
there is no such start.  `decode?` answers only when nothing was broken.

The scan is a machine fed one byte at a time (`Decoder`), so that it runs over a long capture
without a deep stack and so that its laws are laws of one `foldl`.
-/

namespace SourceFormat

/-- A string of bytes: file contents, a captured stream, the spelling of a path. -/
abbrev Bytes := List UInt8

namespace Utf8

/-- The UTF-8 spelling of a list of characters. -/
def encodeChars (cs : List Char) : Bytes :=
  cs.flatMap String.utf8EncodeChar

/-- The UTF-8 spelling of a text. -/
def encode (s : String) : Bytes :=
  encodeChars s.toList

/-- What one byte can begin. -/
inductive Lead where
  /-- A whole character of one byte. -/
  | whole (c : Char)
  /-- The first byte of a longer character: `left` bytes follow, the next of them between
  `low` and `high`, and `bits` are the scalar bits this byte carries. -/
  | opens (left : Nat) (low high : UInt8) (bits : Nat)
  /-- No well-formed character begins with this byte. -/
  | never
  deriving Repr, DecidableEq

/-- The table of first bytes.  The narrowed ranges after `E0`, `ED`, `F0` and `F4` are what keeps
out overlong spellings, surrogates and values above U+10FFFF. -/
def Lead.ofByte (b : UInt8) : Lead :=
  if b < 0x80 then .whole (Char.ofNat b.toNat)
  else if b < 0xC2 then .never
  else if b < 0xE0 then .opens 1 0x80 0xBF (b.toNat - 0xC0)
  else if b = 0xE0 then .opens 2 0xA0 0xBF 0
  else if b = 0xED then .opens 2 0x80 0x9F 0xD
  else if b < 0xF0 then .opens 2 0x80 0xBF (b.toNat - 0xE0)
  else if b = 0xF0 then .opens 3 0x90 0xBF 0
  else if b < 0xF4 then .opens 3 0x80 0xBF (b.toNat - 0xF0)
  else if b = 0xF4 then .opens 3 0x80 0x8F 4
  else .never

/-- A character of which some bytes have been read and `left` (at least one) are missing. -/
structure Partial where
  left : Nat
  low : UInt8
  high : UInt8
  bits : Nat
  deriving Repr, DecidableEq

/-- The state of a scan: the characters found so far, latest first, the character that is being
read, and whether anything broken was met. -/
structure Decoder where
  found : List Char := []
  pending : Option Partial := none
  broken : Bool := false
  deriving Repr, DecidableEq

namespace Decoder

/-- Record one character. -/
def keep (d : Decoder) (c : Char) : Decoder :=
  { d with found := c :: d.found, pending := none }

/-- Record one broken piece. -/
def substitute (d : Decoder) : Decoder :=
  { found := '\uFFFD' :: d.found, pending := none, broken := true }

/-- Read a byte where a character begins. -/
def start (d : Decoder) (b : UInt8) : Decoder :=
  match Lead.ofByte b with
  | .whole c => d.keep c
  | .opens left low high bits => { d with pending := some ⟨left, low, high, bits⟩ }
  | .never => d.substitute

/-- Read one byte.  A byte that cannot continue the character being read ends a broken piece and
is read again as a beginning. -/
def push (d : Decoder) (b : UInt8) : Decoder :=
  match d.pending with
  | none => d.start b
  | some p =>
    if p.low ≤ b ∧ b ≤ p.high then
      let bits := p.bits * 64 + (b.toNat - 0x80)
      if p.left ≤ 1 then d.keep (Char.ofNat bits)
      else { d with pending := some ⟨p.left - 1, 0x80, 0xBF, bits⟩ }
    else d.substitute.start b

/-- End of input: a character still being read is a broken piece. -/
def finish (d : Decoder) : Decoder :=
  match d.pending with
  | none => d
  | some _ => d.substitute

/-- Feed a whole byte string. -/
def feed (d : Decoder) (bs : Bytes) : Decoder :=
  bs.foldl push d

end Decoder

/-- The finished scan of a byte string. -/
def scan (bs : Bytes) : Decoder :=
  (Decoder.feed {} bs).finish

/-- The text of a byte string, each maximal broken piece read as one U+FFFD. -/
def decode (bs : Bytes) : String :=
  String.ofList (scan bs).found.reverse

/-- The text of a byte string that is well-formed throughout. -/
def decode? (bs : Bytes) : Option String :=
  let d := scan bs
  if d.broken then none else some (String.ofList d.found.reverse)

end Utf8

end SourceFormat
