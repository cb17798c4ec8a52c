/-!
# Decimal digits of all scripts

In Unicode 14.0 every script that has decimal digits encodes the ten of them in a row, from zero
to nine, so the class is given by its zeros. A numeral is a non-empty string of decimal digits,
from any mix of scripts.
-/

namespace TextTemplate.Unicode

/-- The code points of the digits zero. -/
def digitZeros : List Nat := [
  0x0030, 0x0660, 0x06f0, 0x07c0, 0x0966, 0x09e6, 0x0a66, 0x0ae6, 0x0b66, 0x0be6, 0x0c66, 0x0ce6,
  0x0d66, 0x0de6, 0x0e50, 0x0ed0, 0x0f20, 0x1040, 0x1090, 0x17e0, 0x1810, 0x1946, 0x19d0, 0x1a80,
  0x1a90, 0x1b50, 0x1bb0, 0x1c40, 0x1c50, 0xa620, 0xa8d0, 0xa900, 0xa9d0, 0xa9f0, 0xaa50, 0xabf0,
  0xff10, 0x104a0, 0x10d30, 0x11066, 0x110f0, 0x11136, 0x111d0, 0x112f0, 0x11450, 0x114d0,
  0x11650, 0x116c0, 0x11730, 0x118e0, 0x11950, 0x11c50, 0x11d50, 0x11da0, 0x16a60, 0x16ac0,
  0x16b50, 0x1d7ce, 0x1d7d8, 0x1d7e2, 0x1d7ec, 0x1d7f6, 0x1e140, 0x1e2f0, 0x1e950, 0x1fbf0]

/-- The value of a decimal digit, absent for any other character. -/
def digitValue? (c : Char) : Option Nat :=
  digitZeros.findSome? fun base =>
    if base ≤ c.toNat ∧ c.toNat < base + 10 then some (c.toNat - base) else none

/-- A decimal digit of any script. -/
def isDecimalDigit (c : Char) : Bool := (digitValue? c).isSome

/-- The digits of ASCII have their usual values. -/
theorem digitValue?_of_isDigit {c : Char} (h : c.isDigit = true) :
    digitValue? c = some (c.toNat - 48) := by
  simp only [Char.isDigit, Bool.and_eq_true, decide_eq_true_eq, UInt32.le_iff_toNat_le] at h
  have low : 48 ≤ c.toNat := h.1
  have high : c.toNat < 48 + 10 := Nat.lt_succ_of_le h.2
  simp [digitValue?, digitZeros, low, high]

/-- The number that a row of digits denotes, read on from `value`; absent as soon as a character
is no digit. -/
def digitsValue? (value : Nat) : List Char → Option Nat
  | [] => some value
  | c :: more => do
    let digit ← digitValue? c
    digitsValue? (10 * value + digit) more

/-- The number that a numeral denotes, absent for a text that is no numeral. Leading zeros do not
matter. -/
def numeralValue? (text : String) : Option Nat :=
  if text.isEmpty then none else digitsValue? 0 text.toList

end TextTemplate.Unicode
