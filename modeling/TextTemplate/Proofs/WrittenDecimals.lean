import Mathlib.Algebra.Field.Rat
import Mathlib.Algebra.Order.Field.Power
import Mathlib.Tactic.Ring
import TextTemplate.Decimal.Written
import TextTemplate.Proofs.NameReading

/-!
# Decimals that were written are read as the same number

A decimal is written with its digits in place or with an exponent, and zeros may be filled in. What
is read of it need not have the same digits, but it has the same value. How a value is rounded to a
number of limited precision is not said here.
-/

namespace TextTemplate.Decimal

open Markup

/-- The number that a decimal denotes. -/
def Numeral.value (numeral : Numeral) : ℚ := numeral.digits * 10 ^ numeral.exponent

/-- All characters are digits. -/
def Digits (text : List Char) : Prop := ∀ c ∈ text, c.isDigit = true

/-- Two rows of digits are a row of digits. -/
theorem Digits.append {front back : List Char} (first : Digits front) (second : Digits back) :
    Digits (front ++ back) := fun c member =>
  (List.mem_append.mp member).elim (first c) (second c)

/-- A number is written in digits. -/
theorem digits_toDigits (number : Nat) : Digits (Nat.toDigits 10 number) := fun _ member =>
  Nat.isDigit_of_mem_toDigits (by decide) (by decide) member

/-- Zeros are digits. -/
theorem digits_zeros (count : Nat) : Digits (List.replicate count '0') := fun c member => by
  rw [List.eq_of_mem_replicate member]
  rfl

/-- Zeros in front do not matter. -/
theorem ofDigitChars_zeros (count : Nat) (text : List Char) :
    Nat.ofDigitChars 10 (List.replicate count '0' ++ text) 0 = Nat.ofDigitChars 10 text 0 := by
  rw [Nat.ofDigitChars_append, Nat.ofDigitChars_replicate_zero, Nat.mul_zero]

/-- Digits in front of something else are read as the number that they denote. -/
theorem leadingDigits_append {front rest : List Char} (digits : Digits front)
    (apart : Apart Char.isDigit rest) :
    leadingDigits (front ++ rest) = (Nat.ofDigitChars 10 front 0, front.length, rest) := by
  have none : rest.takeWhile Char.isDigit = [] := by
    cases rest with
    | nil => rfl
    | cons first rest => simp [apart first rfl]
  rw [leadingDigits, List.takeWhile_append_of_pos digits, none, List.append_nil,
    apart.dropWhile_append digits]

/-- Digits on both sides of a point are read as one integer. -/
theorem readMantissa_point {whole fraction rest : List Char} (front : Digits whole)
    (back : Digits fraction) (apart : Apart Char.isDigit rest) :
    readMantissa (whole ++ '.' :: (fraction ++ rest)) =
      (Nat.ofDigitChars 10 (whole ++ fraction) 0, fraction.length, rest) := by
  have point : Apart Char.isDigit ('.' :: (fraction ++ rest)) := apart_cons rfl _
  have joined : Nat.ofDigitChars 10 (whole ++ fraction) 0 =
      Nat.ofDigitChars 10 whole 0 * Nat.pow 10 fraction.length +
        Nat.ofDigitChars 10 fraction 0 := by
    rw [Nat.ofDigitChars_append, Nat.ofDigitChars_eq_ofDigitChars_zero, Nat.mul_comm]
    rfl
  rw [readMantissa, leadingDigits_append front point]
  simp only [leadingDigits_append back apart, joined]

/-- An exponent that was written is read. -/
theorem readExponent_write (exponent : Int) :
    readExponent ('e' :: writeExponent exponent) = exponent := by
  have digits : Digits ((Nat.toDigits 10 exponent.natAbs).leftpad 2 '0') :=
    (digits_zeros _).append (digits_toDigits _)
  have read : leadingDigits ((Nat.toDigits 10 exponent.natAbs).leftpad 2 '0' ++ []) = _ :=
    leadingDigits_append digits nofun
  have size : Nat.ofDigitChars 10 ((Nat.toDigits 10 exponent.natAbs).leftpad 2 '0') 0 =
      exponent.natAbs := by
    rw [List.leftpad, ofDigitChars_zeros, Nat.ofDigitChars_ten_toDigits]
  rw [List.append_nil, size] at read
  by_cases negative : exponent < 0
  · simp only [writeExponent, if_pos negative, readExponent, leadingSign, read, if_true]
    omega
  · simp only [writeExponent, if_neg negative, readExponent, leadingSign, read, if_false,
      Bool.false_eq_true]
    omega

/-- Digits with a point behind the first one are read as one integer. -/
theorem readMantissa_pointed {digits rest : List Char} (nonempty : digits ≠ [])
    (each : Digits digits) (apart : Apart Char.isDigit rest) (pointless : rest.head? ≠ some '.') :
    readMantissa (pointed digits ++ rest) =
      (Nat.ofDigitChars 10 digits 0, digits.length - 1, rest) := by
  match digits with
  | [] => exact absurd rfl nonempty
  | [digit] =>
    rw [readMantissa, pointed, leadingDigits_append each apart]
    dsimp only
    split
    · exact absurd rfl pointless
    · rfl
  | digit :: second :: more =>
    have front : Digits [digit] := fun c member => each c (by simp_all)
    have back : Digits (second :: more) := fun c member => each c (List.mem_cons_of_mem _ member)
    exact readMantissa_point front back apart

/-- Digits around a point are read with as many places as stand behind it. -/
theorem readNumeral_point {whole fraction : List Char} (front : Digits whole)
    (back : Digits fraction) :
    readNumeral (whole ++ '.' :: fraction) =
      ⟨Nat.ofDigitChars 10 (whole ++ fraction) 0, -(fraction.length : Int)⟩ := by
  have read : readMantissa (whole ++ '.' :: (fraction ++ [])) = _ :=
    readMantissa_point front back nofun
  rw [List.append_nil] at read
  rw [readNumeral, read]
  simp [readExponent]

/-- Digits with their exponent are read as they are. -/
theorem readNumeral_pointed {digits : List Char} (nonempty : digits ≠ []) (each : Digits digits)
    (exponent : Int) :
    readNumeral (pointed digits ++ 'e' :: writeExponent exponent) =
      ⟨Nat.ofDigitChars 10 digits 0, exponent - (digits.length - 1 : Nat)⟩ := by
  have apart : Apart Char.isDigit ('e' :: writeExponent exponent) := apart_cons rfl _
  rw [readNumeral, readMantissa_pointed nonempty each apart (by simp)]
  simp only [readExponent_write]

/-- With zeros behind it up to the point, and one behind that, a number is the same. -/
theorem value_of_zeros (number count : Nat) :
    Numeral.value ⟨Nat.pow 10 (count + 1) * number, -1⟩ = Numeral.value ⟨number, count⟩ := by
  rw [Numeral.value, Numeral.value, Nat.pow_eq, Nat.cast_mul, Nat.cast_pow, zpow_natCast,
    zpow_neg_one]
  push_cast
  ring

/-- The text has a point between digits, and all digits in a row, moved by the places behind the
point, have the value of the decimal. -/
def Numeral.InPlace (numeral : Numeral) (text : List Char) : Prop :=
  ∃ whole fraction, whole ≠ [] ∧ Digits whole ∧ Digits fraction ∧
    text = whole ++ '.' :: fraction ∧
    Numeral.value ⟨Nat.ofDigitChars 10 (whole ++ fraction) 0, -(fraction.length : Int)⟩ =
      numeral.value

section

variable {row : List Char} (digits : Digits row)

include digits

/-- Zeros around the point, in front of all digits, do not change the value. -/
theorem inPlace_behind_zeros (count : Nat) :
    Numeral.InPlace ⟨Nat.ofDigitChars 10 row 0, -((count + row.length : Nat) : Int)⟩
      (['0', '.'] ++ List.replicate count '0' ++ row) := by
  have same : Nat.ofDigitChars 10 (['0'] ++ (List.replicate count '0' ++ row)) 0 =
      Nat.ofDigitChars 10 row 0 := by
    rw [← ofDigitChars_zeros (count + 1) row, List.replicate_succ]
    rfl
  have places : (List.replicate count '0' ++ row).length = count + row.length := by
    rw [List.length_append, List.length_replicate]
  refine ⟨['0'], List.replicate count '0' ++ row, List.cons_ne_nil _ _, digits_zeros 1,
    (digits_zeros count).append digits, rfl, ?_⟩
  rw [same, places]

/-- Zeros between all digits and the point move them, and one more behind it changes nothing. -/
theorem inPlace_before_zeros (nonempty : row ≠ []) (count : Nat) :
    Numeral.InPlace ⟨Nat.ofDigitChars 10 row 0, count⟩
      (row ++ List.replicate count '0' ++ '.' :: ['0']) := by
  have scaled : Nat.ofDigitChars 10 (row ++ List.replicate count '0' ++ ['0']) 0 =
      Nat.pow 10 (count + 1) * Nat.ofDigitChars 10 row 0 := by
    rw [List.append_assoc, ← List.replicate_succ', Nat.ofDigitChars_append,
      Nat.ofDigitChars_replicate_zero]
    rfl
  refine ⟨row ++ List.replicate count '0', ['0'], by simp [nonempty],
    digits.append (digits_zeros count), digits_zeros 1, rfl, ?_⟩
  rw [scaled]
  exact value_of_zeros _ count

/-- The point may stand between the digits. -/
theorem inPlace_between {front : Nat} (some : 0 < front) (nonempty : row ≠ []) :
    Numeral.InPlace ⟨Nat.ofDigitChars 10 row 0, -((row.length - front : Nat) : Int)⟩
      (row.take front ++ '.' :: row.drop front) := by
  have before : row.take front ≠ [] := by
    rw [ne_eq, List.take_eq_nil_iff]
    rintro (zero | nothing)
    · omega
    · exact nonempty nothing
  refine ⟨row.take front, row.drop front, before,
    fun c member => digits c (List.mem_of_mem_take member),
    fun c member => digits c (List.mem_of_mem_drop member), rfl, ?_⟩
  rw [List.take_append_drop, List.length_drop]

end

/-- A decimal is written with a point between its digits, with zeros where there are too few of
them, or with an exponent. -/
theorem write_cases (numeral : Numeral) :
    numeral.InPlace numeral.write ∨
    ∃ digits exponent, digits ≠ [] ∧ Digits digits ∧
      numeral.write = pointed digits ++ 'e' :: writeExponent exponent ∧
      Numeral.value ⟨Nat.ofDigitChars 10 digits 0, exponent - (digits.length - 1 : Nat)⟩ =
        numeral.value := by
  obtain ⟨number, exponent⟩ := numeral
  have digits := digits_toDigits number
  have nonempty : Nat.toDigits 10 number ≠ [] := Nat.toDigits_ne_nil
  have some : 0 < (Nat.toDigits 10 number).length := Nat.length_toDigits_pos
  have denotes : Nat.ofDigitChars 10 (Nat.toDigits 10 number) 0 = number :=
    Nat.ofDigitChars_ten_toDigits
  simp only [Numeral.write]
  generalize Nat.toDigits 10 number = row at *
  subst denotes
  by_cases inPlace : -4 ≤ exponent + row.length - 1 ∧ exponent + row.length - 1 < 16
  · refine .inl ?_
    rw [if_pos inPlace]
    by_cases small : exponent + row.length - 1 < 0
    · rw [if_pos small]
      generalize filled : (-(exponent + row.length - 1) - 1).toNat = count
      obtain rfl : exponent = -((count + row.length : Nat) : Int) := by omega
      exact inPlace_behind_zeros digits count
    · rw [if_neg small]
      by_cases whole : 0 ≤ exponent
      · obtain ⟨count, rfl⟩ := Int.eq_ofNat_of_zero_le whole
        have all : row.length ≤ ((count : Int) + row.length - 1 + 1).toNat := by omega
        rw [List.take_of_length_le all, List.drop_of_length_le all, Int.toNat_natCast]
        exact inPlace_before_zeros digits nonempty count
      · have none : exponent.toNat = 0 := by omega
        generalize cut : (exponent + row.length - 1 + 1).toNat = front
        have behind : (row.drop front).isEmpty = false := by
          rw [List.isEmpty_eq_false_iff, ne_eq, List.drop_eq_nil_iff]
          omega
        obtain rfl : exponent = -((row.length - front : Nat) : Int) := by omega
        rw [none, List.replicate_zero, List.append_nil, behind]
        exact inPlace_between digits (by omega) nonempty
  · refine .inr ⟨row, exponent + row.length - 1, nonempty, digits, if_neg inPlace, ?_⟩
    congr 2
    omega

/-- A decimal that was written is read as one of the same value. -/
theorem readNumeral_write (numeral : Numeral) :
    (readNumeral numeral.write).value = numeral.value := by
  rcases write_cases numeral with ⟨whole, fraction, -, front, back, written, same⟩ |
    ⟨digits, exponent, nonempty, each, written, same⟩
  · rw [written, readNumeral_point front back, same]
  · rw [written, readNumeral_pointed nonempty each, same]

/-- A decimal that was written starts with a digit. -/
theorem exists_digit_write (numeral : Numeral) :
    ∃ digit more, numeral.write = digit :: more ∧ digit.isDigit = true := by
  rcases write_cases numeral with ⟨whole, fraction, nonempty, front, -, written, -⟩ |
    ⟨digits, exponent, nonempty, each, written, -⟩
  · obtain ⟨digit, more, rfl⟩ := List.exists_cons_of_ne_nil nonempty
    exact ⟨digit, more ++ '.' :: fraction, written, front digit (by simp)⟩
  · match digits with
    | [] => exact absurd rfl nonempty
    | [digit] => exact ⟨digit, _, written, each digit (by simp)⟩
    | digit :: second :: more => exact ⟨digit, _, written, each digit (by simp)⟩

/-- A digit is in lower case. -/
theorem toLower_of_isDigit {c : Char} (digit : c.isDigit = true) : c.toLower = c := by
  have small : ¬ (c.val ≥ 'A'.val ∧ c.val ≤ 'Z'.val) := by
    simp only [Char.isDigit, Bool.and_eq_true, decide_eq_true_eq] at digit
    rintro ⟨low, -⟩
    exact absurd (UInt32.le_trans low digit.2) (by decide)
  exact dif_neg small

/-- Digits are in lower case. -/
theorem Digits.map_toLower {text : List Char} (digits : Digits text) :
    text.map Char.toLower = text :=
  (List.map_congr_left fun c member => toLower_of_isDigit (digits c member)).trans (List.map_id _)

/-- A decimal that was written is in lower case. -/
theorem map_toLower_write (numeral : Numeral) : numeral.write.map Char.toLower = numeral.write := by
  have exponents (exponent : Int) :
      (writeExponent exponent).map Char.toLower = writeExponent exponent := by
    have digits : Digits ((Nat.toDigits 10 exponent.natAbs).leftpad 2 '0') :=
      (digits_zeros _).append (digits_toDigits _)
    rw [writeExponent, List.map_cons, digits.map_toLower]
    split <;> rfl
  rcases write_cases numeral with ⟨whole, fraction, -, front, back, written, -⟩ |
    ⟨digits, exponent, -, each, written, -⟩
  · rw [written, List.map_append, List.map_cons, front.map_toLower, back.map_toLower]
    rfl
  · have point : (pointed digits).map Char.toLower = pointed digits := by
      match digits with
      | [] => rfl
      | [digit] => exact each.map_toLower
      | digit :: second :: more =>
        have same := each.map_toLower
        simp only [List.map_cons, List.cons.injEq] at same
        simp only [pointed, List.map_cons, same]
        rfl
    rw [written, List.map_append, List.map_cons, point, exponents]
    rfl

/-- A text that starts with a digit has no sign in front. -/
theorem leadingSign_of_isDigit {digit : Char} (is : digit.isDigit = true) (more : List Char) :
    leadingSign (digit :: more) = (false, digit :: more) := by
  rw [leadingSign]
  · intro rest same
    obtain ⟨rfl, -⟩ := List.cons.inj same
    nomatch is
  · intro rest same
    obtain ⟨rfl, -⟩ := List.cons.inj same
    nomatch is

/-- A text that starts with a digit is read as a decimal. -/
theorem readSize_of_isDigit {digit : Char} (is : digit.isDigit = true) (more : List Char) :
    readSize (digit :: more) =
      nearestFloat (readNumeral (digit :: more)).digits (readNumeral (digit :: more)).exponent := by
  rw [readSize]
  · intro rest same
    obtain ⟨rfl, -⟩ := List.cons.inj same
    nomatch is
  · intro rest same
    obtain ⟨rfl, -⟩ := List.cons.inj same
    nomatch is

/-- What is written for a number is read as the number of limited precision that is nearest to one
of the same value, behind a sign or not. -/
theorem readFloat_write (numeral : Numeral) : ∃ read : Numeral, read.value = numeral.value ∧
    readFloat (.ofList numeral.write) = nearestFloat read.digits read.exponent ∧
    readFloat (.ofList ('-' :: numeral.write)) = -nearestFloat read.digits read.exponent := by
  obtain ⟨digit, more, written, is⟩ := exists_digit_write numeral
  have lower := map_toLower_write numeral
  have same := readNumeral_write numeral
  have dash : Char.toLower '-' = '-' := rfl
  rw [written] at lower same ⊢
  refine ⟨readNumeral (digit :: more), same, ?_, ?_⟩
  · rw [readFloat, String.toList_ofList, lower, leadingSign_of_isDigit is]
    exact readSize_of_isDigit is more
  · rw [readFloat, String.toList_ofList, List.map_cons, lower, dash, leadingSign]
    exact congrArg Neg.neg (readSize_of_isDigit is more)

end TextTemplate.Decimal
