import TextTemplate.Unicode.DecimalDigit
import TextTemplate.Unicode.Letter
import TextTemplate.Unicode.Mark

/-!
# Characters of identifiers

The properties XID_Start and XID_Continue of Unicode 14.0, with the underscore as a further start.
Letters and letter numbers start an identifier, marks, digits and connectors continue it, and a
few characters are set apart by name.
-/

namespace TextTemplate.Unicode

/-- The code points of letter numbers, category Nl. -/
def letterNumberRanges : Ranges := [
  (0x16ee, 0x16f0), (0x2160, 0x2182), (0x2185, 0x2188), (0x3007, 0x3007), (0x3021, 0x3029),
  (0x3038, 0x303a), (0xa6e6, 0xa6ef), (0x10140, 0x10174), (0x10341, 0x10341), (0x1034a, 0x1034a),
  (0x103d1, 0x103d5), (0x12400, 0x1246e)]

/-- The code points of connecting punctuation, category Pc; the underscore is the first. -/
def connectorRanges : Ranges := [
  (0x005f, 0x005f), (0x203f, 0x2040), (0x2054, 0x2054), (0xfe33, 0xfe34), (0xfe4d, 0xfe4f),
  (0xff3f, 0xff3f)]

/-- The underscore and the code points with the property Other_ID_Start. -/
def extraStartRanges : Ranges := [
  (0x005f, 0x005f), (0x1885, 0x1886), (0x2118, 0x2118), (0x212e, 0x212e)]

/-- Letters that would not stay identifiers under compatibility normalization. -/
def excludedStartRanges : Ranges := [
  (0x037a, 0x037a), (0x0e33, 0x0e33), (0x0eb3, 0x0eb3), (0x2e2f, 0x2e2f), (0xfc5e, 0xfc63),
  (0xfdfa, 0xfdfb), (0xfe70, 0xfe70), (0xfe72, 0xfe72), (0xfe74, 0xfe74), (0xfe76, 0xfe76),
  (0xfe78, 0xfe78), (0xfe7a, 0xfe7a), (0xfe7c, 0xfe7c), (0xfe7e, 0xfe7e), (0xff9e, 0xff9f)]

/-- The code points with the property Other_ID_Continue, and the excluded letters that may
continue an identifier. -/
def extraContinueRanges : Ranges := [
  (0x00b7, 0x00b7), (0x0387, 0x0387), (0x0e33, 0x0e33), (0x0eb3, 0x0eb3), (0x1369, 0x1371),
  (0x19da, 0x19da), (0xff9e, 0xff9f)]

/-- A character that may start an identifier. -/
def isIdentifierStart (c : Char) : Bool :=
  (isLetter c || letterNumberRanges.contains c.toNat || extraStartRanges.contains c.toNat)
    && !excludedStartRanges.contains c.toNat

/-- A character that may follow the first one in an identifier. -/
def isIdentifierContinue (c : Char) : Bool :=
  isIdentifierStart c || isMark c || isDecimalDigit c || connectorRanges.contains c.toNat
    || extraContinueRanges.contains c.toNat

end TextTemplate.Unicode
