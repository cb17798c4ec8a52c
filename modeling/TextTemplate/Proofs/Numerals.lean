import Mathlib.Data.List.Forall2
import Mathlib.Data.List.Pairwise
import Mathlib.Data.List.TakeWhile
import Mathlib.Data.Nat.Digits.Defs
import Mathlib.Tactic.Ring
import TextTemplate.Unicode.Identifier

/-!
# What numerals denote

A numeral denotes the number that its digits have in base ten, the last digit counting once. Its
digits may come from any mix of scripts, and zeros in front do not matter. Reading a numeral gives
the number it denotes, and nothing else is read as a numeral. Every number is denoted by its usual
digits, and no numeral starts like a name.
-/

namespace TextTemplate.Unicode

/-- The character is the digit of the given value in one of the scripts. -/
def IsDigit (c : Char) (digit : Nat) : Prop :=
  ∃ base ∈ digitZeros, digit < 10 ∧ c.toNat = base + digit

/-- The text is a numeral for the number: a row of digits, not empty, with that value in base
ten. -/
def Denotes (numeral : String) (number : Nat) : Prop :=
  numeral ≠ "" ∧ ∃ digits, List.Forall₂ IsDigit numeral.toList digits ∧
    Nat.ofDigits 10 digits.reverse = number

/-- The digits of the scripts ascend and are apart from each other. -/
theorem digitZeros_apart : digitZeros.Pairwise (· + 10 ≤ ·) := by decide +kernel

/-- A digit has one value. -/
theorem IsDigit.unique {c : Char} {digit other : Nat} (is : IsDigit c digit)
    (also : IsDigit c other) : digit = other := by
  obtain ⟨base, member, small, code⟩ := is
  obtain ⟨base', member', small', code'⟩ := also
  have apart : digitZeros.Pairwise fun base other => base + 10 ≤ other ∨ other + 10 ≤ base :=
    digitZeros_apart.imp .inl
  have symmetric : Std.Symm fun base other => base + 10 ≤ other ∨ other + 10 ≤ base :=
    ⟨fun _ _ => .symm⟩
  have same : base = base' := by
    by_contra different
    have behind := apart.forall member member' different
    omega
  omega

/-- Looking up the value of a character finds that of a digit, and none of other characters. -/
theorem digitValue?_eq_some_iff {c : Char} {digit : Nat} :
    digitValue? c = some digit ↔ IsDigit c digit := by
  have sound {value : Nat} (found : digitValue? c = some value) : IsDigit c value := by
    obtain ⟨base, member, covers⟩ := List.exists_of_findSome?_eq_some found
    rw [Option.ite_none_right_eq_some, Option.some.injEq] at covers
    obtain ⟨⟨low, high⟩, rfl⟩ := covers
    exact ⟨base, member, by omega, by omega⟩
  refine ⟨sound, fun is => ?_⟩
  cases found : digitValue? c with
  | some value => rw [(sound found).unique is]
  | none =>
    obtain ⟨base, member, small, code⟩ := is
    have covers := List.findSome?_eq_none_iff.mp found base member
    rw [if_pos (by omega)] at covers
    contradiction

/-- A digit in front of others counts ten times as often as the first of them. -/
theorem ofDigits_reverse_cons (digit : Nat) (digits : List Nat) :
    Nat.ofDigits 10 (digit :: digits).reverse =
      10 ^ digits.length * digit + Nat.ofDigits 10 digits.reverse := by
  rw [List.reverse_cons, Nat.ofDigits_append, List.length_reverse, Nat.ofDigits_singleton,
    Nat.add_comm]

/-- Reading on from a value moves it up by one place for each digit that is read. -/
theorem digitsValue?_eq_some_iff {row : List Char} {value number : Nat} :
    digitsValue? value row = some number ↔ ∃ digits, List.Forall₂ IsDigit row digits ∧
      10 ^ row.length * value + Nat.ofDigits 10 digits.reverse = number := by
  induction row generalizing value with
  | nil => simp [digitsValue?, List.forall₂_nil_left_iff]
  | cons c more ih =>
    have places (digit : Nat) {digits : List Nat} (each : List.Forall₂ IsDigit more digits) :
        10 ^ (c :: more).length * value + Nat.ofDigits 10 (digit :: digits).reverse =
          10 ^ more.length * (10 * value + digit) + Nat.ofDigits 10 digits.reverse := by
      rw [ofDigits_reverse_cons, ← each.length_eq, List.length_cons]
      ring
    constructor
    · intro read
      obtain ⟨digit, first, read⟩ := Option.bind_eq_some_iff.mp read
      obtain ⟨digits, each, total⟩ := ih.mp read
      have whole := (places digit each).trans total
      exact ⟨digit :: digits, .cons (digitValue?_eq_some_iff.mp first) each, whole⟩
    · rintro ⟨_, _ | ⟨first, each⟩, total⟩
      rw [places _ each] at total
      exact Option.bind_eq_some_iff.mpr
        ⟨_, digitValue?_eq_some_iff.mpr first, ih.mpr ⟨_, each, total⟩⟩

/-- A text is read as the number that it denotes, if it denotes one. -/
theorem numeralValue?_eq_some_iff {text : String} {number : Nat} :
    numeralValue? text = some number ↔ Denotes text number := by
  rw [numeralValue?, Option.ite_none_left_eq_some, digitsValue?_eq_some_iff,
    String.isEmpty_iff, Denotes]
  simp only [Nat.mul_zero, Nat.zero_add]

/-- A numeral denotes one number. -/
theorem Denotes.unique {numeral : String} {number other : Nat} (denotes : Denotes numeral number)
    (also : Denotes numeral other) : number = other := by
  rw [← numeralValue?_eq_some_iff] at denotes also
  exact Option.some.inj (denotes.symm.trans also)

/-- Digits of ASCII are read as the number they are written for. -/
theorem digitsValue?_of_isDigit {row : List Char} (ascii : ∀ c ∈ row, c.isDigit = true)
    (value : Nat) : digitsValue? value row = some (Nat.ofDigitChars 10 row value) := by
  induction row generalizing value with
  | nil => rfl
  | cons c more ih =>
    have first := digitValue?_of_isDigit (ascii c (by simp))
    have others := ih (fun d member => ascii d (List.mem_cons_of_mem _ member))
      (10 * value + (c.toNat - 48))
    rw [digitsValue?, first, Nat.ofDigitChars_cons]
    exact others

/-- Every number is denoted by its usual digits. -/
theorem denotes_toString (number : Nat) : Denotes (toString number) number := by
  have written : (toString number).toList = Nat.toDigits 10 number := Nat.toList_repr
  have ascii : ∀ c ∈ Nat.toDigits 10 number, c.isDigit = true := fun c member =>
    Nat.isDigit_of_mem_toDigits (by decide) (by decide) member
  have nonempty : ¬(toString number).isEmpty = true := by
    rw [String.isEmpty_iff]
    exact Nat.repr_ne_empty
  rw [← numeralValue?_eq_some_iff, numeralValue?, if_neg nonempty, written,
    digitsValue?_of_isDigit ascii, Nat.ofDigitChars_ten_toDigits]

/-- Whether none of the digits, given by their zeros, lies in one of the ranges. Both rows ascend,
so they are gone through once. -/
def Ranges.digitless : Ranges → List Nat → Bool
  | [], _ => true
  | (low, high) :: more, bases =>
    match bases.dropWhile fun base => (base + 9).blt low with
    | [] => true
    | base :: others => high.blt base && digitless more (base :: others)

/-- A range that lies behind a digit, and one that lies in front of it, do not cover it. -/
theorem Ranges.contains_of_digitless {ranges : Ranges} (ascends : ranges.ascending = true)
    {bases : List Nat} (apart : bases.Pairwise (· + 10 ≤ ·))
    (checked : ranges.digitless bases = true) {base digit : Nat} (member : base ∈ bases)
    (small : digit < 10) : ranges.contains (base + digit) = false := by
  rw [Bool.eq_false_iff, ne_eq, contains_iff ascends]
  rintro ⟨range, inside, low, high⟩
  induction ranges generalizing bases with
  | nil => exact absurd inside List.not_mem_nil
  | cons first more ih =>
    obtain ⟨start, stop⟩ := first
    obtain ⟨ordered, tail, larger⟩ := lt_of_ascending ascends
    have start_le : start ≤ range.1 := by
      rcases List.mem_cons.mp inside with rfl | later
      · exact Nat.le_refl _
      · have behind := larger range later
        omega
    rw [← List.takeWhile_append_dropWhile (p := fun base => (base + 9).blt start) (l := bases),
      List.mem_append] at member
    rcases member with passed | left
    · have before := List.mem_takeWhile_imp passed
      rw [Nat.blt_eq] at before
      omega
    · rw [digitless] at checked
      split at checked
      · next none => exact absurd (none ▸ left) List.not_mem_nil
      · next next others split =>
        rw [Bool.and_eq_true, Nat.blt_eq] at checked
        have apart' := apart.sublist (List.dropWhile_sublist fun base => (base + 9).blt start)
        rw [split] at apart' left
        have next_le : next ≤ base := by
          rcases List.mem_cons.mp left with rfl | later
          · exact Nat.le_refl _
          · have behind := (List.pairwise_cons.mp apart').1 base later
            omega
        rcases List.mem_cons.mp inside with rfl | later
        · omega
        · exact ih tail apart' checked.2 left later

/-- A digit of any script starts no name. -/
theorem IsDigit.not_start {c : Char} {digit : Nat} (is : IsDigit c digit) :
    isIdentifierStart c = false := by
  obtain ⟨base, member, small, code⟩ := is
  have outside {ranges : Ranges} (ascends : ranges.ascending = true)
      (checked : ranges.digitless digitZeros = true) : ranges.contains c.toNat = false := by
    rw [code]
    exact ranges.contains_of_digitless ascends digitZeros_apart checked member small
  have letter : isLetter c = false := outside letterRanges_ascending (by decide +kernel)
  have letterNumber : letterNumberRanges.contains c.toNat = false :=
    outside (by decide +kernel) (by decide +kernel)
  have extra : extraStartRanges.contains c.toNat = false :=
    outside (by decide +kernel) (by decide +kernel)
  rw [isIdentifierStart, letter, letterNumber, extra]
  rfl

/-- A numeral starts with a digit. -/
theorem Denotes.starts {numeral : String} {number : Nat} (denotes : Denotes numeral number) :
    ∃ first more digit, numeral.toList = first :: more ∧ IsDigit first digit := by
  obtain ⟨nonempty, digits, each, -⟩ := denotes
  cases row : numeral.toList with
  | nil => exact absurd (String.toList_eq_nil_iff.mp row) nonempty
  | cons first more =>
    rw [row] at each
    obtain ⟨digit, _, is, -, -⟩ := List.forall₂_cons_left_iff.mp each
    exact ⟨first, more, digit, rfl, is⟩

/-- Digits of two scripts, with zeros in front. -/
example : numeralValue? "0\u06601\u0968" = some 12 := by decide +kernel

end TextTemplate.Unicode
