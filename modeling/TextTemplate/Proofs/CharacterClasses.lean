import TextTemplate.Unicode.Blank
import TextTemplate.Unicode.Identifier

/-!
# Classes of characters that lie apart

Blanks, letters and the characters of names are given by tables. That no blank belongs to the other
classes is checked blank by blank, and the rest follows. None of the characters that tags are made
of belongs to any of the classes.
-/

namespace TextTemplate.Unicode

/-- All code points of a class in order. -/
def Ranges.codes (ranges : Ranges) : List Nat :=
  ranges.flatMap fun range => List.range' range.1 (range.2 + 1 - range.1)

/-- A code point that is found is one of the code points of the class. -/
theorem Ranges.mem_codes {ranges : Ranges} (ascends : ranges.ascending = true) {code : Nat}
    (found : ranges.contains code = true) : code ∈ ranges.codes := by
  obtain ⟨range, member, low, high⟩ := (contains_iff ascends code).mp found
  have inside : code ∈ List.range' range.1 (range.2 + 1 - range.1) := by
    rw [List.mem_range'_1]
    omega
  exact List.mem_flatMap.mpr ⟨range, member, inside⟩

/-- A blank is no letter and stands in no name. -/
theorem apart_of_isBlank {c : Char} (blank : isBlank c = true) :
    isLetter c = false ∧ isIdentifierContinue c = false := by
  have checked : ∀ code ∈ blankRanges.codes,
      isLetter (.ofNat code) = false ∧ isIdentifierContinue (.ofNat code) = false := by
    decide +kernel
  have apart := checked c.toNat (Ranges.mem_codes blankRanges_ascending blank)
  rwa [Char.ofNat_toNat] at apart

/-- A character that starts a name may stand in one. -/
theorem isIdentifierContinue_of_start {c : Char} (starts : isIdentifierStart c = true) :
    isIdentifierContinue c = true := by
  simp [isIdentifierContinue, starts]

/-- A character of a name is no blank. -/
theorem isBlank_of_continue {c : Char} (continues : isIdentifierContinue c = true) :
    isBlank c = false := by
  refine Bool.eq_false_iff.mpr fun blank => ?_
  have apart := (apart_of_isBlank blank).2
  rw [continues] at apart
  contradiction

/-- A dot, a percent sign or a brace is no blank, no letter, and stands in no name. -/
theorem apart_of_markup {c : Char} (markup : c ∈ ['.', '%', '\x7b', '\x7d']) :
    isBlank c = false ∧ isLetter c = false ∧ isIdentifierContinue c = false := by
  simp only [List.mem_cons, List.not_mem_nil, or_false] at markup
  rcases markup with rfl | rfl | rfl | rfl <;> decide +kernel

end TextTemplate.Unicode
