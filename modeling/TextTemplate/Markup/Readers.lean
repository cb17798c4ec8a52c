import TextTemplate.Markup.Scan
import TextTemplate.Unicode.Blank
import TextTemplate.Unicode.Identifier

/-!
# Readers of names, keywords and tags

Reading never refuses a text. An interpolation that cannot be read becomes literal text up to the
next brace; a statement that cannot be read becomes an invalid tag that ends where reading
stopped, so that the intent stays visible. No reader goes back: what comes next is read from the
place where the broken tag was given up.
-/

namespace TextTemplate.Markup

open Text Unicode

namespace Scan

/-- Moves past blanks. -/
def skipBlanks : Scan Unit := skipWhile isBlank

/-- Literal text from `start` up to the next opening brace or the end. -/
def readRaw (start : Pos) : Scan Token :=
  traced .raw .token do
    skipWhile (· != '{')
    let span ← since start
    return ⟨.raw span.raw, span⟩

/-- An invalid tag from `start` to the cursor. -/
def readInvalid (start : Pos) : Scan Token :=
  traced .invalid .token do
    let span ← since start
    return ⟨.invalid span.raw, span⟩

/-- The longest run of letters, if it is a keyword. -/
def readKeyword : Scan (Option Keyword) :=
  traced .keyword .keyword do
    let start ← here
    skipWhile isLetter
    let span ← since start
    return Keyword.ofSpelling? span.raw

/-- The longest name at the cursor. -/
def readName : Scan (Option Ident) :=
  traced .name .name do
    let start ← here
    let some first ← current? | return none
    if isIdentifierStart first then
      advance
      skipWhile isIdentifierContinue
      let span ← since start
      return some ⟨span.raw, span⟩
    else
      return none

/-- Where a name was read, fewer characters are left. -/
theorem readName_shorter {c : Cursor} {ident : Ident}
    (found : (readName.run c).value = some ident) :
    (readName.run c).cursor.rest.length < c.rest.length := by
  rw [readName, value_traced] at found
  rw [readName, cursor_traced]
  match h : c.rest with
  | [] => simp [Cursor.current?, h] at found
  | first :: rest =>
    by_cases starts : isIdentifierStart first
    · have shorter := (List.dropWhile_suffix isIdentifierContinue (l := rest)).length_le
      simp [Cursor.current?, h, starts]
      omega
    · simp [Cursor.current?, h, starts] at found

/-- The names of a path: each but the first follows a dot, and a dot that no name follows is
passed over. -/
def namesAt (c : Cursor) : Reading (List String) :=
  let name := readName.run c
  match _found : name.value with
  | none => ⟨[], name.cursor, name.events⟩
  | some ident =>
    if name.cursor.current? = some '.' then
      let more := namesAt name.cursor.advance
      ⟨ident.text :: more.value, more.cursor, name.events ++ more.events⟩
    else
      ⟨[ident.text], name.cursor, name.events⟩
termination_by c.rest.length
decreasing_by
  have shorter := readName_shorter ‹_›
  simp only [Cursor.rest_advance, List.length_tail]
  omega

/-- Where no name is read there are no names. -/
theorem namesAt_of_none {c : Cursor} (absent : (readName.run c).value = none) :
    namesAt c = ⟨[], (readName.run c).cursor, (readName.run c).events⟩ := by
  rw [namesAt]
  split
  · rfl
  · simp_all

/-- Behind a name that a dot follows, further names are read. -/
theorem namesAt_of_dot {c : Cursor} {ident : Ident} (found : (readName.run c).value = some ident)
    (dot : (readName.run c).cursor.current? = some '.') :
    namesAt c =
      ⟨ident.text :: (namesAt (readName.run c).cursor.advance).value,
        (namesAt (readName.run c).cursor.advance).cursor,
        (readName.run c).events ++ (namesAt (readName.run c).cursor.advance).events⟩ := by
  rw [namesAt]
  split
  · simp_all
  · simp_all

/-- A name that no dot follows is the last one. -/
theorem namesAt_of_no_dot {c : Cursor} {ident : Ident}
    (found : (readName.run c).value = some ident)
    (last : (readName.run c).cursor.current? ≠ some '.') :
    namesAt c = ⟨[ident.text], (readName.run c).cursor, (readName.run c).events⟩ := by
  rw [namesAt]
  split
  · simp_all
  · simp_all

/-- Reading names moves forward. -/
theorem onward_namesAt (c : Cursor) : c.Onward (namesAt c).cursor := by
  fun_induction namesAt c with
  | case1 c name => exact readName.onward c
  | case2 c name ident found dot more ih =>
    exact (readName.onward c).trans ((Cursor.onward_advance _).trans ih)
  | case3 c name ident found dot => exact readName.onward c

/-- The names of a path. -/
def readNames : Scan (List String) := ⟨namesAt, onward_namesAt⟩

/-- The longest path at the cursor. A single dot may follow it, and belongs to its span. -/
def readPath : Scan (Option Path) :=
  traced .path .path do
    let start ← here
    match ← readNames with
    | [] => return none
    | root :: steps => return some ⟨root, steps, ← since start⟩

/-- The end of a statement tag. -/
def readStatementClose : Scan Bool := do
  skipBlanks
  acceptAll ['%', '}']

/-- The rest of a loop head. -/
def readLoopHead (start : Pos) : Scan (Option Token) := do
  skipBlanks
  let some var ← readName | return none
  skipBlanks
  let some .within ← readKeyword | return none
  skipBlanks
  let some path ← readPath | return none
  if ← readStatementClose then
    return some ⟨.forStart var path, ← since start⟩
  else
    return none

/-- The rest of a tag that holds a condition. -/
def readCondition (lexeme : Path → Lexeme) (start : Pos) : Scan (Option Token) := do
  skipBlanks
  let some path ← readPath | return none
  if ← readStatementClose then
    return some ⟨lexeme path, ← since start⟩
  else
    return none

/-- The rest of a tag that holds nothing but its keyword. -/
def readBareTag (lexeme : Lexeme) (start : Pos) : Scan (Option Token) := do
  if ← readStatementClose then
    return some ⟨lexeme, ← since start⟩
  else
    return none

/-- The rest of the tag that a keyword opens. -/
def readTag (start : Pos) : Keyword → Scan (Option Token)
  | .loop => readLoopHead start
  | .endLoop => readBareTag .forEnd start
  | .condition => readCondition .ifStart start
  | .elseCondition => readCondition .elifTag start
  | .otherwise => readBareTag .elseTag start
  | .endCondition => readBareTag .ifEnd start
  | .within => return none

/-- The rest of a statement tag, from its percent sign on. -/
def readStatement (start : Pos) : Scan Token := do
  advance
  skipBlanks
  let some keyword ← readKeyword | readInvalid start
  let some tag ← readTag start keyword | readInvalid start
  return tag

/-- The rest of an interpolation, from its second brace on. -/
def readInterpolation (start : Pos) : Scan Token := do
  advance
  skipBlanks
  let some path ← readPath | readRaw start
  skipBlanks
  if ← acceptAll ['}', '}'] then
    return ⟨.use path, ← since start⟩
  else
    readRaw start

/-- What an opening brace leads to, once it has been passed. -/
def readAfterBrace (start : Pos) : Scan Token := do
  match ← current? with
  | some '{' => readInterpolation start
  | some '%' => readStatement start
  | _ => readRaw start

/-- The next token. -/
def readToken : Scan Token :=
  traced .token .token do
    let start ← here
    match ← current? with
    | none => return ⟨.endOfText, ← since start⟩
    | some '{' =>
      advance
      readAfterBrace start
    | some _ => readRaw start

/-- Before the end of the text, reading a token leaves fewer characters. -/
theorem readToken_shorter {c : Cursor} (more : c.rest ≠ []) :
    (readToken.run c).cursor.rest.length < c.rest.length := by
  rw [readToken, cursor_traced]
  match h : c.rest with
  | [] => exact absurd h more
  | next :: rest =>
    by_cases brace : next = '{'
    · subst brace
      have := ((readAfterBrace c.pos).onward c.advance).length_le
      simp [h] at this
      simp [Cursor.current?, h]
      omega
    · have shorter := (List.dropWhile_suffix (· != '{') (l := rest)).length_le
      simp [Cursor.current?, h, readRaw, brace]
      omega

end Scan

end TextTemplate.Markup
