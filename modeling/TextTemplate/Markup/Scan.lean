import TextTemplate.Markup.Keyword
import TextTemplate.Markup.Token
import TextTemplate.Text.Cursor

/-!
# Scans: readers that move a cursor forward

A scan reads something at a cursor. Its reading holds the value that was read, the cursor where
reading stopped and the events on the way, which the trace of a parse is made of. A scan never
moves backwards, so a reader that fails leaves the cursor where it noticed.
-/

namespace TextTemplate.Markup

open Text

/-- The readers whose work is traced. -/
inductive Reader where
  | token | raw | invalid | keyword | name | path
  deriving DecidableEq

/-- What a traced reader came back with. -/
inductive Outcome where
  /-- A token, literal text and invalid tags among them. -/
  | token (token : Token)
  /-- A keyword, or none. -/
  | keyword (keyword : Option Keyword)
  /-- A name, or none. -/
  | name (ident : Option Ident)
  /-- A path, or none. -/
  | path (path : Option Path)
  deriving DecidableEq

/-- A moment in the work of the readers. -/
inductive Event where
  /-- A reader starts at a position, in front of the given character. -/
  | enter (reader : Reader) (pos : Pos) (next : Option Char)
  /-- The reader that started last comes back. -/
  | leave (outcome : Outcome)
  deriving DecidableEq

/-- What a scan read at a cursor. -/
structure Reading (α : Type) where
  /-- The value that was read. -/
  value : α
  /-- Where reading stopped. -/
  cursor : Cursor
  /-- The traced readers at work, in order. -/
  events : List Event

/-- A reader of values of type `α`. -/
structure Scan (α : Type) where
  /-- Reads at a cursor. -/
  run : Cursor → Reading α
  /-- Reading moves forward. -/
  onward : ∀ c : Cursor, c.Onward (run c).cursor

namespace Scan

variable {α β : Type}

/-- Scans follow each other from where the one before stopped; the events of both are kept. -/
instance : Monad Scan where
  pure value := ⟨fun c => ⟨value, c, []⟩, .refl⟩
  bind first next :=
    ⟨fun c =>
      let reading := first.run c
      let following := (next reading.value).run reading.cursor
      ⟨following.value, following.cursor, reading.events ++ following.events⟩,
     fun c => (first.onward c).trans ((next _).onward _)⟩

/-- The position of the cursor. -/
def here : Scan Pos := ⟨fun c => ⟨c.pos, c, []⟩, .refl⟩

/-- The next character, absent at the end. -/
def current? : Scan (Option Char) := ⟨fun c => ⟨c.current?, c, []⟩, .refl⟩

/-- Moves past one character. -/
def advance : Scan Unit := ⟨fun c => ⟨(), c.advance, []⟩, Cursor.onward_advance⟩

/-- Moves past the longest run of characters of the class `member`. -/
def skipWhile (member : Char → Bool) : Scan Unit :=
  ⟨fun c => ⟨(), c.skipWhile member, []⟩, Cursor.onward_skipWhile member⟩

/-- The span from `mark` to the cursor. -/
def since (mark : Pos) : Scan Span := ⟨fun c => ⟨c.since mark, c, []⟩, .refl⟩

/-- Moves past the given characters one by one, and stops in front of the first one that differs. -/
def acceptAll : List Char → Scan Bool
  | [] => return true
  | c :: more => do
    if (← current?) = some c then
      advance
      acceptAll more
    else
      return false

/-- The scan with its start and its outcome noted among the events. -/
def traced (reader : Reader) (outcome : α → Outcome) (scan : Scan α) : Scan α where
  run c :=
    let reading := scan.run c
    { reading with
      events :=
        .enter reader c.pos c.current? :: (reading.events ++ [.leave (outcome reading.value)]) }
  onward := scan.onward

/-- A value that is given is read from nothing. -/
@[simp] theorem run_pure (value : α) (c : Cursor) : (pure value : Scan α).run c = ⟨value, c, []⟩ :=
  rfl

/-- A scan that follows another one starts where that one stopped. -/
@[simp] theorem run_bind (first : Scan α) (next : α → Scan β) (c : Cursor) :
    (first >>= next).run c =
      ⟨((next (first.run c).value).run (first.run c).cursor).value,
        ((next (first.run c).value).run (first.run c).cursor).cursor,
        (first.run c).events ++ ((next (first.run c).value).run (first.run c).cursor).events⟩ :=
  rfl

/-- Asking for the position reads nothing. -/
@[simp] theorem run_here (c : Cursor) : here.run c = ⟨c.pos, c, []⟩ := rfl

/-- Asking for the next character reads nothing. -/
@[simp] theorem run_current? (c : Cursor) : current?.run c = ⟨c.current?, c, []⟩ := rfl

/-- Passing a character moves the cursor by one. -/
@[simp] theorem run_advance (c : Cursor) : advance.run c = ⟨(), c.advance, []⟩ := rfl

/-- Skipping a class of characters moves the cursor past them. -/
@[simp] theorem run_skipWhile (member : Char → Bool) (c : Cursor) :
    (skipWhile member).run c = ⟨(), c.skipWhile member, []⟩ := rfl

/-- Taking a span reads nothing. -/
@[simp] theorem run_since (mark : Pos) (c : Cursor) :
    (since mark).run c = ⟨c.since mark, c, []⟩ := rfl

/-- Tracing does not change the value read. -/
@[simp] theorem value_traced (reader : Reader) (outcome : α → Outcome) (scan : Scan α)
    (c : Cursor) : ((scan.traced reader outcome).run c).value = (scan.run c).value := rfl

/-- Tracing does not change where reading stops. -/
@[simp] theorem cursor_traced (reader : Reader) (outcome : α → Outcome) (scan : Scan α)
    (c : Cursor) : ((scan.traced reader outcome).run c).cursor = (scan.run c).cursor := rfl

end Scan

end TextTemplate.Markup
