/-!
# Positions and spans in a template

A position counts code points from the start of the text, and lines and columns from one.
Only a newline ends a line: every other character, blank or not, takes one column. A span is a
stretch of text together with the positions on both of its sides.
-/

namespace TextTemplate.Text

/-- A place between two characters of a text. -/
structure Pos where
  /-- Number of characters in front. -/
  offset : Nat
  /-- Line number, counted from one. -/
  line : Nat
  /-- Column number, counted from one. -/
  column : Nat
  deriving DecidableEq

/-- The place in front of the first character. -/
def Pos.start : Pos := ⟨0, 1, 1⟩

/-- The number of characters behind the last newline, or of all characters where there is none. -/
def lastLineLength (passed : List Char) : Nat :=
  (passed.reverse.takeWhile (· != '\n')).length

/-- The place reached from `pos` by reading past `passed`. After a newline the column counts the
characters behind the last one; otherwise it grows by the number of characters. -/
def Pos.after (pos : Pos) (passed : List Char) : Pos where
  offset := pos.offset + passed.length
  line := pos.line + passed.count '\n'
  column := if '\n' ∈ passed then lastLineLength passed + 1 else pos.column + passed.length

/-- Reading nothing stays in place. -/
@[simp] theorem Pos.after_nil (pos : Pos) : pos.after [] = pos := by
  simp [after]

/-- The offset grows by the number of characters read. -/
@[simp] theorem Pos.after_offset (pos : Pos) (passed : List Char) :
    (pos.after passed).offset = pos.offset + passed.length := rfl

/-- The characters in front of the first newline are all characters where there is none. -/
theorem length_takeWhile_newline (s : List Char) :
    (s.takeWhile (· != '\n')).length = s.length ↔ '\n' ∉ s := by
  induction s with
  | nil => simp
  | cons c s ih =>
    by_cases same : c = '\n'
    · simp [same]
    · have other : '\n' ≠ c := fun h => same h.symm
      simp [same, other, ih]

/-- The last line of a concatenation lies in its second part, or spans both parts. -/
theorem lastLineLength_append (front back : List Char) :
    lastLineLength (front ++ back) =
      if '\n' ∈ back then lastLineLength back else lastLineLength front + back.length := by
  simp only [lastLineLength, List.reverse_append, List.takeWhile_append, length_takeWhile_newline,
    List.mem_reverse]
  by_cases newline : '\n' ∈ back <;> simp [newline, Nat.add_comm]

/-- Reading a concatenation is reading its two parts in turn. -/
theorem Pos.after_append (pos : Pos) (front back : List Char) :
    pos.after (front ++ back) = (pos.after front).after back := by
  simp only [after, List.length_append, List.count_append, List.mem_append,
    lastLineLength_append, mk.injEq]
  refine ⟨by omega, by omega, ?_⟩
  by_cases inFront : '\n' ∈ front <;> by_cases inBack : '\n' ∈ back <;>
    simp [inFront, inBack] <;> omega

/-- A stretch of text and the places on both of its sides. -/
structure Span where
  /-- The characters covered, exactly as they stand in the text. -/
  raw : String
  /-- The place in front of the first character covered. -/
  start : Pos
  /-- The place behind the last character covered. -/
  stop : Pos
  deriving DecidableEq

/-- The span of no characters at one place. -/
def Span.empty (pos : Pos) : Span := ⟨"", pos, pos⟩

end TextTemplate.Text
