import TextTemplate.Fault
import TextTemplate.Markup.Readers

/-!
# Readers that check what they rely on

The readers take for granted that no mark they capture from lies ahead of the cursor and that a path
has a name. Here they are written once more with these checks in them, and with a bound on the
number of names that are read. A check that fails refuses the text.
-/

namespace TextTemplate

namespace Markup

open Text Unicode

/-- A reader that may be refused. -/
abbrev Checked (α : Type) := StateT Cursor (Except Fault) α

namespace Checked

variable {α β : Type}

/-- The position of the cursor. -/
def here : Checked Pos := return (← get).pos

/-- The next character, absent at the end. -/
def current? : Checked (Option Char) := return (← get).current?

/-- Moves past one character. -/
def advance : Checked Unit := modify Cursor.advance

/-- Moves past the longest run of characters of the class `member`. -/
def skipWhile (member : Char → Bool) : Checked Unit := modify (Cursor.skipWhile member)

/-- Makes a request that may not be answered. -/
def request : Except Misuse α → Checked α
  | .ok value => return value
  | .error misuse => throw (.misuse misuse)

/-- The span from `mark` to the cursor, refused for a mark that lies ahead. -/
def capture (mark : Pos) : Checked Span := do
  request ((← get).capture mark)

/-- Moves past the given characters one by one, and stops in front of the first one that differs. -/
def acceptAll : List Char → Checked Bool
  | [] => return true
  | c :: more => do
    if (← current?) = some c then
      advance
      acceptAll more
    else
      return false

/-- Moves past blanks. -/
def skipBlanks : Checked Unit := skipWhile isBlank

/-- Literal text from `start` up to the next opening brace or the end. -/
def readRaw (start : Pos) : Checked Token := do
  skipWhile (· != '{')
  let span ← capture start
  return ⟨.raw span.raw, span⟩

/-- An invalid tag from `start` to the cursor. -/
def readInvalid (start : Pos) : Checked Token := do
  let span ← capture start
  return ⟨.invalid span.raw, span⟩

/-- The longest run of letters, if it is a keyword. -/
def readKeyword : Checked (Option Keyword) := do
  let start ← here
  skipWhile isLetter
  let span ← capture start
  return Keyword.ofSpelling? span.raw

/-- The longest name at the cursor. -/
def readName : Checked (Option Ident) := do
  let start ← here
  let some first ← current? | return none
  if isIdentifierStart first then
    advance
    skipWhile isIdentifierContinue
    let span ← capture start
    return some ⟨span.raw, span⟩
  else
    return none

/-- The names of a path, in at most `rounds` rounds. -/
def names : Nat → Checked (List String)
  | 0 => throw .unfinished
  | rounds + 1 => do
    let some ident ← readName | return []
    if (← current?) = some '.' then
      advance
      return ident.text :: (← names rounds)
    else
      return [ident.text]

/-- The names of a path, in no more rounds than characters are left, and one for the end. -/
def readNames : Checked (List String) := do
  names ((← get).rest.length + 1)

/-- The longest path at the cursor. -/
def readPath : Checked (Option Path) := do
  let start ← here
  let parts ← readNames
  if parts.isEmpty then
    return none
  else
    return some (← request (Path.ofParts parts (← capture start)))

/-- The end of a statement tag. -/
def readStatementClose : Checked Bool := do
  skipBlanks
  acceptAll ['%', '}']

/-- The rest of a tag that holds nothing more but its end. -/
def readBareTag (lexeme : Lexeme) (start : Pos) : Checked (Option Token) := do
  if ← readStatementClose then
    return some ⟨lexeme, ← capture start⟩
  else
    return none

/-- The rest of a loop head. -/
def readLoopHead (start : Pos) : Checked (Option Token) := do
  skipBlanks
  let some var ← readName | return none
  skipBlanks
  let some .within ← readKeyword | return none
  skipBlanks
  let some path ← readPath | return none
  readBareTag (.forStart var path) start

/-- The rest of a tag that holds a condition. -/
def readCondition (lexeme : Path → Lexeme) (start : Pos) : Checked (Option Token) := do
  skipBlanks
  let some path ← readPath | return none
  readBareTag (lexeme path) start

/-- The rest of the tag that a keyword opens. -/
def readTag (start : Pos) : Keyword → Checked (Option Token)
  | .loop => readLoopHead start
  | .endLoop => readBareTag .forEnd start
  | .condition => readCondition .ifStart start
  | .elseCondition => readCondition .elifTag start
  | .otherwise => readBareTag .elseTag start
  | .endCondition => readBareTag .ifEnd start
  | .within => return none

/-- The rest of a statement tag, from its percent sign on. -/
def readStatement (start : Pos) : Checked Token := do
  advance
  skipBlanks
  let some keyword ← readKeyword | readInvalid start
  let some tag ← readTag start keyword | readInvalid start
  return tag

/-- The rest of an interpolation, from its second brace on. -/
def readInterpolation (start : Pos) : Checked Token := do
  advance
  skipBlanks
  let some path ← readPath | readRaw start
  skipBlanks
  if ← acceptAll ['}', '}'] then
    return ⟨.use path, ← capture start⟩
  else
    readRaw start

/-- What an opening brace leads to, once it has been passed. -/
def readAfterBrace (start : Pos) : Checked Token := do
  match ← current? with
  | some '{' => readInterpolation start
  | some '%' => readStatement start
  | _ => readRaw start

/-- The next token. -/
def readToken : Checked Token := do
  let start ← here
  match ← current? with
  | none => return ⟨.endOfText, ← capture start⟩
  | some '{' =>
    advance
    readAfterBrace start
  | some _ => readRaw start

end Checked

end Markup

end TextTemplate
