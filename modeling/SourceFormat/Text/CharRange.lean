/-!
# Classes of characters given by ranges

A property of characters that a standard defines by enumeration is kept as the list of its ranges
of scalar values, in ascending order, and looked up from the left.
-/

namespace SourceFormat.Text

/-- Ranges of scalar values, first and last included, in ascending order. -/
abbrev CharRanges := List (Nat × Nat)

/-- Whether one of the ranges holds `n`.  The ranges ascend, so the search stops at the first one
that ends at `n` or later. -/
def CharRanges.holds : CharRanges → Nat → Bool
  | [], _ => false
  | (first, last) :: rest, n => if n ≤ last then first ≤ n else holds rest n

end SourceFormat.Text
