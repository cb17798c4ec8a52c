import TextTemplate.Misuse
import TextTemplate.Text.Position

/-!
# A cursor over the characters of a template

A cursor splits a text into the characters already read and the rest, and keeps the position of
the split. It only moves forward, one character at a time; at the end it stays where it is. The
relation `Onward` says that one cursor was reached from another by moving forward.
-/

namespace TextTemplate.Text

/-- A place of reading in a text. -/
structure Cursor where
  /-- The characters already read, the last one first. -/
  before : List Char
  /-- The characters still to be read. -/
  rest : List Char
  /-- The position of the next character. -/
  pos : Pos
  /-- The position is the one reached by reading everything in front. -/
  pos_eq : pos = Pos.start.after before.reverse

namespace Cursor

/-- The cursor in front of the first character of `text`. -/
def ofText (text : String) : Cursor := ⟨[], text.toList, .start, rfl⟩

/-- The next character, absent at the end of the text. -/
def current? (c : Cursor) : Option Char := c.rest.head?

/-- Moves past one character. -/
def advance (c : Cursor) : Cursor :=
  match c with
  | ⟨_, [], _, _⟩ => c
  | ⟨before, next :: rest, pos, pos_eq⟩ =>
    ⟨next :: before, rest, pos.after [next], by simp [pos_eq, Pos.after_append]⟩

/-- Moves past `n` characters, or to the end where fewer are left. -/
def advanceBy : Nat → Cursor → Cursor
  | 0, c => c
  | n + 1, c => advanceBy n c.advance

/-- Moves past the longest run of characters of the class `member`. -/
def skipWhile (member : Char → Bool) (c : Cursor) : Cursor :=
  c.advanceBy (c.rest.takeWhile member).length

/-- The span from `mark` to the cursor. The mark is taken as it is; one that lies ahead covers no
characters. -/
def since (mark : Pos) (c : Cursor) : Span :=
  ⟨.ofList (c.before.take (c.pos.offset - mark.offset)).reverse, mark, c.pos⟩

/-- The span from `mark` to the cursor, refused for a mark that lies ahead. -/
def capture (mark : Pos) (c : Cursor) : Except Misuse Span :=
  if mark.offset ≤ c.pos.offset then .ok (c.since mark) else .error .captureAhead

/-- The cursor `d` was reached from `c` by moving forward. -/
def Onward (c d : Cursor) : Prop :=
  ∃ passed, c.rest = passed ++ d.rest ∧ d.before = passed.reverse ++ c.before

/-- The offset of a cursor is the number of characters read. -/
theorem pos_offset (c : Cursor) : c.pos.offset = c.before.length := by
  simp [c.pos_eq, Pos.start]

/-- Cursors with the same characters on both sides are the same. -/
theorem ext {c d : Cursor} (before : c.before = d.before) (rest : c.rest = d.rest) : c = d := by
  cases c with
  | mk _ _ _ hc =>
    cases d with
    | mk _ _ _ hd =>
      subst hc hd before rest
      rfl

/-- Staying in place is moving forward by nothing. -/
theorem Onward.refl (c : Cursor) : c.Onward c := ⟨[], by simp, by simp⟩

/-- Moving forward twice is moving forward. -/
theorem Onward.trans {c d e : Cursor} (first : c.Onward d) (second : d.Onward e) :
    c.Onward e := by
  obtain ⟨p, hp, hp'⟩ := first
  obtain ⟨q, hq, hq'⟩ := second
  exact ⟨p ++ q, by simp [hp, hq], by simp [hq', hp']⟩

/-- The position behind the characters passed is reached from the one in front by reading them. -/
theorem pos_eq_after {c d : Cursor} {passed : List Char}
    (before : d.before = passed.reverse ++ c.before) : d.pos = c.pos.after passed := by
  rw [d.pos_eq, c.pos_eq, before, ← Pos.after_append]
  simp

/-- The span between two cursors covers exactly the characters passed. -/
theorem since_eq {c d : Cursor} {passed : List Char}
    (before : d.before = passed.reverse ++ c.before) :
    d.since c.pos = ⟨.ofList passed, c.pos, c.pos.after passed⟩ := by
  simp [since, before, pos_eq_after before]

/-- A place passed before can be captured from. -/
theorem Onward.capture_eq {c d : Cursor} (h : c.Onward d) :
    d.capture c.pos = .ok (d.since c.pos) := by
  obtain ⟨passed, _, before⟩ := h
  have ahead : c.pos.offset ≤ d.pos.offset := by simp [pos_offset, before]
  simp [capture, ahead]

/-- Moving forward leaves no more to read. -/
theorem Onward.length_le {c d : Cursor} (h : c.Onward d) : d.rest.length ≤ c.rest.length := by
  obtain ⟨p, hp, _⟩ := h
  simp [hp]

/-- Passing a character moves forward. -/
theorem onward_advance (c : Cursor) : c.Onward c.advance := by
  match c with
  | ⟨_, [], _, _⟩ => exact .refl _
  | ⟨_, next :: _, _, _⟩ => exact ⟨[next], rfl, rfl⟩

/-- Passing characters moves forward. -/
theorem onward_advanceBy (n : Nat) (c : Cursor) : c.Onward (c.advanceBy n) := by
  induction n generalizing c with
  | zero => exact .refl c
  | succ n ih => exact (onward_advance c).trans (ih c.advance)

/-- Skipping a class of characters moves forward. -/
theorem onward_skipWhile (member : Char → Bool) (c : Cursor) : c.Onward (c.skipWhile member) :=
  onward_advanceBy _ c

/-- Moving past a character leaves the others. -/
@[simp] theorem rest_advance (c : Cursor) : c.advance.rest = c.rest.tail := by
  match c with
  | ⟨_, [], _, _⟩ => rfl
  | ⟨_, _ :: _, _, _⟩ => rfl

/-- Moving past characters leaves the others. -/
@[simp] theorem rest_advanceBy (n : Nat) (c : Cursor) :
    (c.advanceBy n).rest = c.rest.drop n := by
  induction n generalizing c with
  | zero => rfl
  | succ n ih => simp [advanceBy, ih]

/-- Skipping a class of characters ends in front of the first character outside it. -/
@[simp] theorem rest_skipWhile (member : Char → Bool) (c : Cursor) :
    (c.skipWhile member).rest = c.rest.dropWhile member := by
  simp only [skipWhile, rest_advanceBy]
  induction c.rest with
  | nil => rfl
  | cons next rest ih => by_cases h : member next <;> simp [h, ih]

end Cursor

end TextTemplate.Text
