import VmInspect.Text.Ranges

/-!
# Blank characters

The white space of the Unicode standard: the controls of ASCII from tab to carriage return, the
space, and the separators beyond ASCII.  `trim` takes it off both ends of a text.
-/

namespace VmInspect.Text

/-- The code points with the property White_Space. -/
def blankRanges : Ranges :=
  [(0x0009, 0x000D), (0x0020, 0x0020), (0x0085, 0x0085), (0x00A0, 0x00A0), (0x1680, 0x1680),
   (0x2000, 0x200A), (0x2028, 0x2029), (0x202F, 0x202F), (0x205F, 0x205F), (0x3000, 0x3000)]

def isBlank (c : Char) : Bool := blankRanges.holds c

/-- The text without the blanks at its two ends. -/
def trim (cs : List Char) : List Char :=
  ((cs.dropWhile isBlank).reverse.dropWhile isBlank).reverse

end VmInspect.Text
