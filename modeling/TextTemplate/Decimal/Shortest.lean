/-!
# The shortest decimal of a binary number

A binary number of limited precision stands for all reals that round to it. Among them some
decimals have the fewest digits, and the nearest of these is how the number is shown. The search
works on exact integers: a number is `mantissa * 2 ^ exponent`, and the reals that round to it
reach half of the gap to the next number on either side.
-/

namespace TextTemplate.Decimal

/-- The positive number `mantissa * 2 ^ exponent`. -/
structure Binary where
  /-- The integer in front of the power. -/
  mantissa : Nat
  /-- The exponent of two. -/
  exponent : Int
  /-- Whether the gap to the next smaller number is half of the gap to the next larger one. -/
  atPowerOfTwo : Bool
  deriving DecidableEq

/-- The number `digits * 10 ^ exponent`. -/
structure Numeral where
  /-- The digits, read as one integer. -/
  digits : Nat
  /-- The exponent of ten. -/
  exponent : Int
  deriving DecidableEq

/-- A multiple `count` of the power `base ^ exponent` as numerator and denominator. -/
def quotient (count base : Nat) (exponent : Int) : Nat × Nat :=
  (count * base.pow exponent.toNat, base.pow (-exponent).toNat)

/-- Whether one quotient is smaller than another. -/
def less (a b : Nat × Nat) : Bool := a.1 * b.2 < b.1 * a.2

/-- Whether a real, given as a quotient, rounds to the number. The ends of the range belong to it
when the mantissa is even. -/
def Binary.covers (number : Binary) (real : Nat × Nat) : Bool :=
  let quarters := fun count => quotient count 2 (number.exponent - 2)
  let low := quarters (4 * number.mantissa - if number.atPowerOfTwo then 1 else 2)
  let high := quarters (4 * number.mantissa + 2)
  if number.mantissa % 2 = 0 then !less real low && !less high real
  else less low real && less real high

/-- The multiple of a power of ten that is nearest to the number among those that round to it,
where there is one. Of two that are equally near the even multiple is taken. -/
def Binary.onGrid? (number : Binary) (exponent : Int) : Option Numeral :=
  let value := quotient number.mantissa 2 number.exponent
  let unit := quotient 1 10 exponent
  let below := value.1 * unit.2 / (value.2 * unit.1)
  let covered := fun count => number.covers (quotient count 10 exponent)
  let middle := quotient (2 * below + 1) 10 exponent
  let double := (2 * value.1, value.2)
  match covered below, covered (below + 1) with
  | true, true =>
    if less double middle || (!less middle double && below % 2 = 0) then some ⟨below, exponent⟩
    else some ⟨below + 1, exponent⟩
  | true, false => some ⟨below, exponent⟩
  | false, true => some ⟨below + 1, exponent⟩
  | false, false => none

/-- The exponents of ten that are tried, the largest first. The last one is finer than any gap
between the numbers of a 64 bit format. -/
def gridExponents : List Int := (List.range 640).map fun (index : Nat) => 310 - (index : Int)

/-- The shortest decimal that rounds to a number, and the nearest of these. -/
def Binary.shortest (number : Binary) : Numeral :=
  (gridExponents.findSome? number.onGrid?).getD ⟨0, 0⟩

end TextTemplate.Decimal
