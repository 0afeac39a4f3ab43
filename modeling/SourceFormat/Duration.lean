/-!
# Durations

A duration is a whole number of nanoseconds.  Its text uses the largest of the units s, ms, µs and
ns of which it holds at least one, with the rest as a decimal fraction in full, without trailing
zeros; the empty duration is `0ns`.
-/

namespace SourceFormat

/-- A span of time. -/
structure Duration where
  nanos : Nat
  deriving Repr, DecidableEq, Inhabited

namespace Duration

/-- A duration of so many milliseconds. -/
def ofMillis (n : Nat) : Duration := ⟨n * 1000000⟩

/-- The whole milliseconds of a duration. -/
def millis (d : Duration) : Nat := d.nanos / 1000000

/-- The decimal fraction `rest / 10 ^ places`, with its point; nothing if it is zero. -/
def fractionText (rest places : Nat) : String :=
  if rest = 0 then ""
  else
    let digits := (toString rest).toList
    let padded := List.replicate (places - digits.length) '0' ++ digits
    "." ++ String.ofList (padded.reverse.dropWhile (· = '0')).reverse

/-- So many nanoseconds in a unit of `10 ^ places` nanoseconds. -/
def inUnit (nanos places : Nat) (unit : String) : String :=
  toString (nanos / Nat.pow 10 places) ++ fractionText (nanos % Nat.pow 10 places) places ++ unit

/-- The text of a duration. -/
def text (d : Duration) : String :=
  if 1000000000 ≤ d.nanos then inUnit d.nanos 9 "s"
  else if 1000000 ≤ d.nanos then inUnit d.nanos 6 "ms"
  else if 1000 ≤ d.nanos then inUnit d.nanos 3 "µs"
  else inUnit d.nanos 0 "ns"

end Duration

end SourceFormat
