/-!
# Classes of characters as ascending ranges of code points

A class of characters is written down as a list of closed ranges in ascending order. Looking a
code point up stops at the first range that does not lie below it.
-/

namespace TextTemplate.Unicode

/-- Closed ranges of code points, in ascending order and apart from each other. -/
abbrev Ranges := List (Nat × Nat)

/-- Every range is in order and ends before the next one starts. -/
def Ranges.ascending : Ranges → Bool
  | [] => true
  | [(low, high)] => low ≤ high
  | (low, high) :: (low', high') :: more =>
    low ≤ high && high < low' && ascending ((low', high') :: more)

/-- Whether a code point lies in one of the ranges. -/
def Ranges.contains : Ranges → Nat → Bool
  | [], _ => false
  | (low, high) :: more, code =>
    if code < low then false else if code ≤ high then true else contains more code

/-- Behind the first of ascending ranges only larger code points follow. -/
theorem Ranges.lt_of_ascending {low high : Nat} {more : Ranges}
    (ascends : ascending ((low, high) :: more) = true) :
    low ≤ high ∧ ascending more = true ∧ ∀ range ∈ more, high < range.1 := by
  induction more generalizing low high with
  | nil => simpa [ascending] using ascends
  | cons next more ih =>
    obtain ⟨low', high'⟩ := next
    simp only [ascending, Bool.and_eq_true, decide_eq_true_eq] at ascends
    obtain ⟨⟨ordered, apart⟩, tail⟩ := ascends
    obtain ⟨ordered', _, larger⟩ := ih tail
    refine ⟨ordered, tail, fun range member => ?_⟩
    rcases List.mem_cons.mp member with rfl | member
    · exact apart
    · have := larger range member
      omega

/-- In ascending ranges a code point is found exactly when one of them covers it. -/
theorem Ranges.contains_iff {ranges : Ranges} (ascends : ranges.ascending = true) (code : Nat) :
    ranges.contains code = true ↔ ∃ range ∈ ranges, range.1 ≤ code ∧ code ≤ range.2 := by
  induction ranges with
  | nil => simp [contains]
  | cons range more ih =>
    obtain ⟨low, high⟩ := range
    obtain ⟨_, tail, larger⟩ := lt_of_ascending ascends
    have beyond : code ≤ high → ¬∃ range ∈ more, range.1 ≤ code ∧ code ≤ range.2 := by
      rintro small ⟨range, member, bounds⟩
      have := larger range member
      omega
    have cover : (∃ range ∈ (low, high) :: more, range.1 ≤ code ∧ code ≤ range.2) ↔
        (low ≤ code ∧ code ≤ high) ∨ ∃ range ∈ more, range.1 ≤ code ∧ code ≤ range.2 := by
      simp
    rw [cover, contains]
    split
    · have := beyond (by omega)
      simp [this]
      omega
    · split
      · simp; omega
      · rw [ih tail]
        exact ⟨.inr, fun covered => covered.resolve_left (by omega)⟩

end TextTemplate.Unicode
