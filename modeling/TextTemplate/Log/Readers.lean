import TextTemplate.Log.Record
import TextTemplate.Markup.Description
import TextTemplate.Markup.Scan

/-!
# The log of the readers

Every traced reader leaves two records: where it started, and the beginning of a description of
what it came back with. Records of readers called by another one are indented further than its
own.
-/

namespace TextTemplate.Log

open Text Markup

/-- The name of a reader in the log. -/
def readerLabel : Reader → String
  | .token => "read_token"
  | .raw => "read_raw"
  | .invalid => "invalid_expr"
  | .keyword => "read_keyword"
  | .name => "read_id"
  | .path => "read_long_id"

/-- A place of reading, with the character that comes next between quotes. -/
def describePlace (pos : Pos) (next : Option Char) : String :=
  "<TemplateCursor at " ++ toString pos.line ++ ":" ++ toString pos.column ++ " "
    ++ quoted (next.elim "" String.singleton) ++ ">"

/-- Describes what was read, where something was. -/
def describeOption {α : Type} (describe : α → String) (found : Option α) : String :=
  found.elim "None" describe

/-- What a reader came back with, described in full. -/
def describeOutcome : Outcome → String
  | .token token => describeToken token
  | .keyword keyword => describeOption (quoted ·.spelling) keyword
  | .name ident => describeOption describeIdent ident
  | .path path => describeOption describePath path

/-- The first sixty characters of a description. -/
def clipped (description : String) : String := .ofList (description.toList.take 60)

/-- Two blanks for every reader at work. -/
def indentation (depth : Nat) : String := .ofList (List.replicate (2 * depth) ' ')

/-- The messages of events, while `depth` readers are at work. -/
def eventMessages (depth : Nat) : List Event → List String
  | [] => []
  | .enter reader pos next :: more =>
    (indentation depth ++ "[" ++ readerLabel reader ++ "] at " ++ describePlace pos next)
      :: eventMessages (depth + 1) more
  | .leave outcome :: more =>
    (indentation (depth - 1) ++ "=> " ++ clipped (describeOutcome outcome))
      :: eventMessages (depth - 1) more

/-- The records of the events of one reading. -/
def readingRecords {α : Type} (reading : Reading α) : List Record :=
  (eventMessages 0 reading.events).map fun message => ⟨.tokens, .debug, message⟩

end TextTemplate.Log
