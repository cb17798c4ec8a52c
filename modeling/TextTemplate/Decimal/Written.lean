import TextTemplate.Decimal.Shortest

/-!
# Numbers with a fraction, read and written

Numbers of the 64 bit format are written with the fewest digits that read back as the same number.
From 0.0001 up to 10^16 the digits stand in place around a point, with at least one digit behind
it; other numbers have an exponent of at least two digits and a sign.
-/

namespace TextTemplate.Decimal

/-- Digits with a point behind the first one, unless there is only one. -/
def pointed : List Char → List Char
  | [] => []
  | [digit] => [digit]
  | digit :: more => digit :: '.' :: more

/-- An exponent of ten with its sign and at least two digits. -/
def writeExponent (exponent : Int) : List Char :=
  (if exponent < 0 then '-' else '+') :: (Nat.toDigits 10 exponent.natAbs).leftpad 2 '0'

/-- A decimal written out. -/
def Numeral.write (numeral : Numeral) : List Char :=
  let digits := Nat.toDigits 10 numeral.digits
  let leading := numeral.exponent + digits.length - 1
  if -4 ≤ leading ∧ leading < 16 then
    if leading < 0 then
      ['0', '.'] ++ List.replicate (-leading - 1).toNat '0' ++ digits
    else
      let whole := digits.take (leading + 1).toNat ++ List.replicate numeral.exponent.toNat '0'
      let fraction := digits.drop (leading + 1).toNat
      whole ++ '.' :: if fraction.isEmpty then ['0'] else fraction
  else
    pointed digits ++ 'e' :: writeExponent leading

/-- How many fractions there are for one exponent: the 52 low bits of the 64 bit format. -/
def fractionCount : Nat := 0x10000000000000

/-- How many exponent fields there are: the next eleven bits. -/
def exponentCount : Nat := 0x800

/-- The positive finite number with the given exponent field and fraction field. -/
def Binary.ofFields (field fraction : Nat) : Binary :=
  if field = 0 then ⟨fraction, -1074, false⟩
  else ⟨fraction + fractionCount, field - 1075, fraction = 0 ∧ 1 < field⟩

/-- A number of the 64 bit format written out. -/
def writeFloat (x : Float) : String :=
  let bits := x.toBits.toNat
  let field := bits / fractionCount % exponentCount
  let fraction := bits % fractionCount
  if field + 1 = exponentCount ∧ fraction ≠ 0 then "nan"
  else
    let size :=
      if field + 1 = exponentCount then "inf"
      else if field = 0 ∧ fraction = 0 then "0.0"
      else .ofList (Binary.ofFields field fraction).shortest.write
    if bits / fractionCount / exponentCount = 1 then "-" ++ size else size

/-- The number that decimal digits denote, and how many digits there are, up to the first other
character. -/
def leadingDigits (text : List Char) : Nat × Nat × List Char :=
  let digits := text.takeWhile Char.isDigit
  (Nat.ofDigitChars 10 digits 0, digits.length, text.dropWhile Char.isDigit)

/-- A sign in front, and what follows it. -/
def leadingSign : List Char → Bool × List Char
  | '-' :: more => (true, more)
  | '+' :: more => (false, more)
  | text => (false, text)

/-- The number nearest to `digits * 10 ^ exponent`. Numbers out of range are told by their size
before any power is computed. -/
def nearestFloat (digits : Nat) (exponent : Int) : Float :=
  let size := exponent + (Nat.toDigits 10 digits).length
  if digits = 0 ∨ size < -400 then 0
  else if 400 < size then 1 / 0
  else Float.ofScientific digits (exponent < 0) exponent.natAbs

/-- The digits in front of an exponent as one integer, with or without a point between them, and how
many of them stand behind the point. -/
def readMantissa (text : List Char) : Nat × Nat × List Char :=
  let (whole, _, rest) := leadingDigits text
  match rest with
  | '.' :: rest =>
    let (fraction, places, rest) := leadingDigits rest
    (whole * Nat.pow 10 places + fraction, places, rest)
  | rest => (whole, 0, rest)

/-- The exponent that stands behind the digits, zero where there is none. -/
def readExponent : List Char → Int
  | 'e' :: rest | 'E' :: rest =>
    let (negative, rest) := leadingSign rest
    let (size, _, _) := leadingDigits rest
    if negative then -size else size
  | _ => 0

/-- A decimal, with or without a point and an exponent. -/
def readNumeral (text : List Char) : Numeral :=
  let (digits, places, rest) := readMantissa text
  ⟨digits, readExponent rest - places⟩

/-- The size of a number: infinity, no number or a decimal. -/
def readSize : List Char → Float
  | 'i' :: 'n' :: 'f' :: _ => 1 / 0
  | 'n' :: 'a' :: 'n' :: _ => 0 / 0
  | text =>
    let numeral := readNumeral text
    nearestFloat numeral.digits numeral.exponent

/-- The number that a text denotes, after a sign or without one. Capitals do not matter. -/
def readFloat (text : String) : Float :=
  let (negative, rest) := leadingSign (text.toList.map Char.toLower)
  if negative then -readSize rest else readSize rest

end TextTemplate.Decimal
