import TextTemplate.Markup.Readers

/-!
# All tokens of a text

Reading token after token takes a text apart. Every token but the last covers at least one
character; the last one marks the end of the text.
-/

namespace TextTemplate.Markup

open Text

/-- The readings of all tokens from the cursor on, up to the end of the text. -/
def readingsFrom (c : Cursor) : List (Reading Token) :=
  let reading := Scan.readToken.run c
  if c.rest = [] then [reading] else reading :: readingsFrom reading.cursor
termination_by c.rest.length
decreasing_by exact Scan.readToken_shorter ‹_›

/-- The readings of all tokens of a text. -/
def readings (text : String) : List (Reading Token) := readingsFrom (.ofText text)

/-- All tokens of a text, the end of the text included. -/
def tokenize (text : String) : List Token := (readings text).map (·.value)

/-- There is always a last token. -/
theorem readingsFrom_ne_nil (c : Cursor) : readingsFrom c ≠ [] := by
  rw [readingsFrom]
  split <;> simp

end TextTemplate.Markup
