import TextTemplate.Log.Notices
import TextTemplate.Log.Readers
import TextTemplate.Markup.CheckedReaders

/-!
# The desk of a parse

A parse changes the state of its surroundings as it goes: the cursor moves on, one token is held
that nobody has used yet, and lines are written to a log. The lines of the readers are indented by
how many readers are at work, a count that is carried from token to token and never set back. Below
warnings the log is kept only on request; readers that keep no log are other ones than those that
do.
-/

namespace TextTemplate.Parsing

open Expression Log Markup Text

/-- What a parse works with. -/
structure Desk where
  /-- Where the next token will be read. -/
  cursor : Cursor
  /-- The token read last and not used yet. -/
  current : Token
  /-- How many readers are at work. -/
  level : Nat
  /-- How many bodies of constructs are being read. -/
  depth : Nat
  /-- Whether all records are kept, or warnings only. -/
  debug : Bool
  /-- The records that were kept, in order. -/
  log : List Record

/-- A parse of something, which may fail. -/
abbrev Parser := StateT Desk (Except Fault)

/-- How many readers are at work behind events, when so many are in front of them. -/
def levelAfter (level : Nat) : List Event → Nat
  | [] => level
  | .enter _ _ _ :: more => levelAfter (level + 1) more
  | .leave _ :: more => levelAfter (level - 1) more

/-- The records of events, while `level` readers are at work. -/
def eventRecords (level : Nat) (events : List Event) : List Record :=
  (eventMessages level events).map fun message => ⟨.tokens, .debug, message⟩

/-- Reads the next token at the cursor. With all records kept the readers leave theirs. -/
def readToken : Parser Token := do
  let desk ← get
  if desk.debug then
    let reading := Scan.readToken.run desk.cursor
    set { desk with
      cursor := reading.cursor
      level := levelAfter desk.level reading.events
      log := desk.log ++ eventRecords desk.level reading.events }
    return reading.value
  else
    let (token, cursor) ← Checked.readToken.run desk.cursor
    set { desk with cursor := cursor }
    return token

/-- The token held. -/
def current : Parser Token := return (← get).current

/-- Holds the next token instead of the current one. The end of the text stays. -/
def advance : Parser Unit := do
  let token ← current
  if token.lexeme ≠ .endOfText then
    let next ← readToken
    modify fun desk => { desk with current := next }

/-- Writes a record, where records of its level are kept. -/
def write (record : Record) : Parser Unit :=
  modify fun desk =>
    if desk.debug ∨ record.level = .warning then { desk with log := desk.log ++ [record] } else desk

/-- Writes the record of a notice. -/
def report (notice : Notice) : Parser Unit := write (noticeRecord notice)

/-- The desk of a text, with its first token held. -/
def Desk.ofText (debug : Bool) (text : String) : Except Fault Desk := do
  let blank : Desk := ⟨.ofText text, ⟨.endOfText, .empty .start⟩, 0, 0, debug, []⟩
  let (first, desk) ← readToken.run blank
  return { desk with current := first }

end TextTemplate.Parsing
