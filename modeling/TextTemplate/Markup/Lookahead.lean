import TextTemplate.Markup.Tokenize

/-!
# Reading token by token with one token of lookahead

A lookahead holds the next token that nobody has used yet, and the cursor behind it. Single
readers may also be run at the cursor by hand; they move it on and leave the token held as it is.
-/

namespace TextTemplate.Markup

open Text

/-- A cursor with the token in front of it and the places marked on the way. -/
structure Lookahead where
  /-- Where the next token will be read. -/
  cursor : Cursor
  /-- The token read last and not used yet. -/
  current : Token
  /-- The places marked so far, the newest first. -/
  marks : List Pos

/-- What can be done with a lookahead. -/
inductive Step where
  /-- Replaces the token held by the next one, unless it ends the text. -/
  | advance
  /-- Uses up all tokens that are left. -/
  | drain
  /-- Marks the place of the cursor. -/
  | mark
  /-- Moves the cursor past one character. -/
  | moveCursor
  /-- Reads a token without holding it. -/
  | readToken
  /-- Reads literal text from the mark taken `back` marks before the newest. -/
  | readRaw (back : Nat)
  /-- Gives up a tag that started at the mark taken `back` marks before the newest. -/
  | readInvalid (back : Nat)
  /-- Reads a name. -/
  | readName
  /-- Reads a path. -/
  | readPath
  /-- Reads a keyword. -/
  | readKeyword
  /-- Reads the end of a statement tag. -/
  | readStatementClose
  /-- Moves the cursor past blanks. -/
  | skipBlanks
  deriving DecidableEq

/-- What a step came back with. -/
inductive Answer where
  /-- Nothing but the new state. -/
  | done
  /-- The tokens used up. -/
  | tokens (tokens : List Token)
  /-- What a traced reader read. -/
  | outcome (outcome : Outcome)
  /-- Whether the tag was closed. -/
  | closed (closed : Bool)
  deriving DecidableEq

namespace Lookahead

/-- The lookahead that holds the first token of a text. The place behind that token is marked. -/
def ofText (text : String) : Lookahead :=
  let reading := Scan.readToken.run (.ofText text)
  ⟨reading.cursor, reading.value, [reading.cursor.pos]⟩

/-- Holds the next token instead of the current one. The end of the text stays. -/
def advance (state : Lookahead) : Lookahead :=
  if state.current.lexeme = .endOfText then state
  else
    let reading := Scan.readToken.run state.cursor
    { state with cursor := reading.cursor, current := reading.value }

/-- The token held and all that follow it. -/
def tokens (state : Lookahead) : List Token :=
  if state.current.lexeme = .endOfText then [state.current]
  else state.current :: (readingsFrom state.cursor).map (·.value)

/-- The lookahead that holds the end of the text. -/
def drained (state : Lookahead) : Lookahead :=
  if state.current.lexeme = .endOfText then state
  else
    let last := (readingsFrom state.cursor).getLast (readingsFrom_ne_nil _)
    { state with cursor := last.cursor, current := last.value }

/-- The place marked `back` marks before the newest, or the start of the text. -/
def markAt (state : Lookahead) (back : Nat) : Pos := state.marks.getD back .start

/-- Runs a single reader at the cursor. -/
def read {α : Type} (state : Lookahead) (scan : Scan α) (answer : α → Answer) :
    Answer × Lookahead :=
  let reading := scan.run state.cursor
  (answer reading.value, { state with cursor := reading.cursor })

/-- Takes one step. -/
def perform (state : Lookahead) : Step → Answer × Lookahead
  | .advance => (.done, state.advance)
  | .drain => (.tokens state.tokens, state.drained)
  | .mark => (.done, { state with marks := state.cursor.pos :: state.marks })
  | .moveCursor => state.read Scan.advance fun _ => .done
  | .readToken => state.read Scan.readToken fun token => .outcome (.token token)
  | .readRaw back => state.read (Scan.readRaw (state.markAt back)) fun token =>
      .outcome (.token token)
  | .readInvalid back => state.read (Scan.readInvalid (state.markAt back)) fun token =>
      .outcome (.token token)
  | .readName => state.read Scan.readName fun name => .outcome (.name name)
  | .readPath => state.read Scan.readPath fun path => .outcome (.path path)
  | .readKeyword => state.read Scan.readKeyword fun keyword => .outcome (.keyword keyword)
  | .readStatementClose => state.read Scan.readStatementClose .closed
  | .skipBlanks => state.read Scan.skipBlanks fun _ => .done

/-- Takes steps in turn; every step is answered together with the state it leads to. -/
def run : Lookahead → List Step → List (Answer × Lookahead)
  | _, [] => []
  | state, step :: more =>
    let result := state.perform step
    result :: run result.2 more

end Lookahead

end TextTemplate.Markup
