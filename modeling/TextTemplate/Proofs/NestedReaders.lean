import TextTemplate.Markup.Readers

/-!
# Every reader that starts comes back

The readers call one another and give up in many places, but a reader that was started comes back in
any case, and only after all that it started itself. So what happens while something is read is a
row of calls, each with a row of calls inside it. Reading a token is a single call.
-/

namespace TextTemplate.Markup

open Text Unicode

/-- Every reader that starts comes back, and in between only readers that it calls do. -/
inductive Nested : List Event → Prop
  /-- No reader starts. -/
  | nil : Nested []
  /-- A reader starts and comes back, and others start behind it. -/
  | call (reader : Reader) (pos : Pos) (next : Option Char) (outcome : Outcome)
      {inner more : List Event} : Nested inner → Nested more →
      Nested (.enter reader pos next :: (inner ++ .leave outcome :: more))

/-- Calls may follow each other. -/
theorem Nested.append {front back : List Event} (first : Nested front) (second : Nested back) :
    Nested (front ++ back) := by
  induction first with
  | nil => exact second
  | call reader pos next outcome inside _ _ ih =>
    rw [List.cons_append, List.append_assoc, List.cons_append]
    exact .call reader pos next outcome inside ih

namespace Scan

variable {α β : Type}

/-- Wherever the scan reads, the readers that start come back. -/
def Nests (scan : Scan α) : Prop := ∀ c, Nested (scan.run c).events

namespace Nests

/-- Giving a value starts no reader. -/
theorem pure (value : α) : Nests (return value) := fun _ => .nil

/-- Scans with calls in them may follow each other. -/
theorem bind {first : Scan α} {next : α → Scan β} (own : first.Nests)
    (following : ∀ value, (next value).Nests) : (first >>= next).Nests :=
  fun c => (own c).append (following _ _)

/-- A traced scan is one more call around those in it. -/
theorem traced {scan : Scan α} (own : scan.Nests) (reader : Reader) (outcome : α → Outcome) :
    (scan.traced reader outcome).Nests :=
  fun c => .call reader _ _ _ (own c) .nil

end Nests

/-- Asking for the position starts no reader. -/
theorem nests_here : here.Nests := fun _ => .nil

/-- Asking for the next character starts no reader. -/
theorem nests_current? : current?.Nests := fun _ => .nil

/-- Passing a character starts no reader. -/
theorem nests_advance : advance.Nests := fun _ => .nil

/-- Skipping a class of characters starts no reader. -/
theorem nests_skipWhile (member : Char → Bool) : (skipWhile member).Nests := fun _ => .nil

/-- Skipping blanks starts no reader. -/
theorem nests_skipBlanks : skipBlanks.Nests := nests_skipWhile isBlank

/-- Taking a span starts no reader. -/
theorem nests_since (mark : Pos) : (since mark).Nests := fun _ => .nil

/-- Passing given characters starts no reader. -/
theorem nests_acceptAll (chars : List Char) : (acceptAll chars).Nests := by
  induction chars with
  | nil => exact .pure true
  | cons char more ih =>
    refine nests_current?.bind fun next => ?_
    split
    · exact nests_advance.bind fun _ => ih
    · exact .pure false

/-- Reading literal text is a call. -/
theorem nests_readRaw (start : Pos) : (readRaw start).Nests := by
  refine Nests.traced ?_ .raw .token
  exact (nests_skipWhile _).bind fun _ => (nests_since start).bind fun _ => .pure _

/-- Giving up a tag is a call. -/
theorem nests_readInvalid (start : Pos) : (readInvalid start).Nests := by
  refine Nests.traced ?_ .invalid .token
  exact (nests_since start).bind fun _ => .pure _

/-- Reading a keyword is a call. -/
theorem nests_readKeyword : readKeyword.Nests := by
  refine Nests.traced ?_ .keyword .keyword
  exact nests_here.bind fun start => (nests_skipWhile isLetter).bind fun _ =>
    (nests_since start).bind fun _ => .pure _

/-- Reading a name is a call. -/
theorem nests_readName : readName.Nests := by
  refine Nests.traced (nests_here.bind fun start => nests_current?.bind fun next => ?_) .name .name
  cases next with
  | none => exact .pure none
  | some first =>
    dsimp only
    split
    · exact nests_advance.bind fun _ => (nests_skipWhile isIdentifierContinue).bind fun _ =>
        (nests_since start).bind fun _ => .pure _
    · exact .pure none

/-- Reading the names of a path is a call for each of them, and for one that fails. -/
theorem nests_readNames : readNames.Nests := by
  intro c
  have name := nests_readName
  change Nested (namesAt c).events
  fun_induction namesAt c with
  | case1 c own found => exact name c
  | case2 c own ident found dot more ih => exact (name c).append ih
  | case3 c own ident found last => exact name c

/-- Reading a path is a call. -/
theorem nests_readPath : readPath.Nests := by
  refine Nests.traced (nests_here.bind fun start => nests_readNames.bind fun names => ?_) .path .path
  cases names with
  | nil => exact .pure none
  | cons root steps => exact (nests_since start).bind fun _ => .pure _

/-- Reading the end of a statement tag starts no reader. -/
theorem nests_readStatementClose : readStatementClose.Nests :=
  nests_skipBlanks.bind fun _ => nests_acceptAll _

/-- Ending a tag starts no reader. -/
theorem nests_readBareTag (lexeme : Lexeme) (start : Pos) : (readBareTag lexeme start).Nests := by
  refine nests_readStatementClose.bind fun closed => ?_
  cases closed with
  | false => exact .pure none
  | true => exact (nests_since start).bind fun _ => .pure _

/-- Reading a loop head is a call for each of its parts. -/
theorem nests_readLoopHead (start : Pos) : (readLoopHead start).Nests := by
  refine nests_skipBlanks.bind fun _ => nests_readName.bind fun var => ?_
  cases var with
  | none => exact .pure none
  | some var =>
    refine nests_skipBlanks.bind fun _ => nests_readKeyword.bind fun keyword => ?_
    match keyword with
    | some .within =>
      refine nests_skipBlanks.bind fun _ => nests_readPath.bind fun path => ?_
      cases path with
      | none => exact .pure none
      | some path => exact nests_readBareTag (.forStart var path) start
    | none | some .loop | some .endLoop | some .condition | some .elseCondition | some .otherwise
    | some .endCondition => exact .pure none

/-- Reading a condition is a call for its path. -/
theorem nests_readCondition (lexeme : Path → Lexeme) (start : Pos) :
    (readCondition lexeme start).Nests := by
  refine nests_skipBlanks.bind fun _ => nests_readPath.bind fun path => ?_
  cases path with
  | none => exact .pure none
  | some path => exact nests_readBareTag (lexeme path) start

/-- Reading the rest of a tag makes calls for its parts, whichever keyword opens it. -/
theorem nests_readTag (start : Pos) (keyword : Keyword) : (readTag start keyword).Nests := by
  cases keyword with
  | loop => exact nests_readLoopHead start
  | within => exact .pure none
  | endLoop | otherwise | endCondition => exact nests_readBareTag _ start
  | condition | elseCondition => exact nests_readCondition _ start

/-- Reading a statement makes calls for its parts, and for giving it up. -/
theorem nests_readStatement (start : Pos) : (readStatement start).Nests := by
  refine nests_advance.bind fun _ => nests_skipBlanks.bind fun _ =>
    nests_readKeyword.bind fun keyword => ?_
  cases keyword with
  | none => exact nests_readInvalid start
  | some keyword =>
    refine (nests_readTag start keyword).bind fun tag => ?_
    cases tag with
    | none => exact nests_readInvalid start
    | some tag => exact .pure tag

/-- Reading an interpolation makes calls for its path, and for giving it up. -/
theorem nests_readInterpolation (start : Pos) : (readInterpolation start).Nests := by
  refine nests_advance.bind fun _ => nests_skipBlanks.bind fun _ =>
    nests_readPath.bind fun path => ?_
  cases path with
  | none => exact nests_readRaw start
  | some path =>
    refine nests_skipBlanks.bind fun _ => (nests_acceptAll _).bind fun closed => ?_
    cases closed with
    | false => exact nests_readRaw start
    | true => exact (nests_since start).bind fun _ => .pure _

/-- Reading goes on in calls behind an opening brace. -/
theorem nests_readAfterBrace (start : Pos) : (readAfterBrace start).Nests := by
  refine nests_current?.bind fun next => ?_
  split
  · exact nests_readInterpolation start
  · exact nests_readStatement start
  · exact nests_readRaw start

/-- Reading a token is a single call, which comes back with the token. -/
theorem events_readToken (c : Cursor) : ∃ inner, Nested inner ∧
    (readToken.run c).events = .enter .token c.pos c.current? ::
      (inner ++ [.leave (.token (readToken.run c).value)]) := by
  refine ⟨_, ?_, rfl⟩
  refine nests_here.bind (fun start => nests_current?.bind fun next => ?_) c
  split
  · exact (nests_since start).bind fun _ => .pure _
  · exact nests_advance.bind fun _ => nests_readAfterBrace start
  · exact nests_readRaw start

end Scan

/-- The readers that start while a token is read come back. -/
theorem nested_readToken (c : Cursor) : Nested (Scan.readToken.run c).events := by
  obtain ⟨inner, nested, events⟩ := Scan.events_readToken c
  rw [events]
  exact .call .token c.pos c.current? _ nested .nil

end TextTemplate.Markup
