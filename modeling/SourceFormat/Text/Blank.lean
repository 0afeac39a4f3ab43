import SourceFormat.Text.CharRange

/-!
# White space

The characters with the Unicode property White_Space, and trimming by it.  The property holds of
more than blanks and line breaks: of the no-break space, of the line and paragraph separators, of
the ideographic space.  It does not hold of the zero-width space.
-/

namespace SourceFormat.Text

/-- The ranges of White_Space. -/
def blankRanges : CharRanges :=
  [(0x9, 0xD), (0x20, 0x20), (0x85, 0x85), (0xA0, 0xA0), (0x1680, 0x1680), (0x2000, 0x200A),
   (0x2028, 0x2029), (0x202F, 0x202F), (0x205F, 0x205F), (0x3000, 0x3000)]

/-- Whether a character is white space. -/
def isBlank (c : Char) : Bool :=
  blankRanges.holds c.toNat

/-- A text without the white space at its two ends. -/
def trim (s : String) : String :=
  String.ofList ((s.toList.dropWhile isBlank).reverse.dropWhile isBlank).reverse

end SourceFormat.Text
