import TextTemplate.Unicode.Ranges

/-!
# Blanks

The characters that may stand between the parts of a tag: those of bidirectional type WS, B or S
and those of category Zs in Unicode 14.0. The newline is one of them.
-/

namespace TextTemplate.Unicode

/-- The code points of all blanks. -/
def blankRanges : Ranges := [
  (0x0009, 0x000d), (0x001c, 0x0020), (0x0085, 0x0085), (0x00a0, 0x00a0), (0x1680, 0x1680),
  (0x2000, 0x200a), (0x2028, 0x2029), (0x202f, 0x202f), (0x205f, 0x205f), (0x3000, 0x3000)]

/-- The ranges of blanks ascend. -/
theorem blankRanges_ascending : blankRanges.ascending = true := by decide +kernel

/-- A blank of any width, line breaks included. -/
def isBlank (c : Char) : Bool := blankRanges.contains c.toNat

end TextTemplate.Unicode
