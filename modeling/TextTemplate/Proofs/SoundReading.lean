import TextTemplate.Markup.CheckedReaders
import TextTemplate.Proofs.TokenPositions

/-!
# Reading never fails a check

On the way through a text no check of a reader fails, from whatever place the reader is started and
with whatever mark was taken before. A checked reader comes back with what the reader without checks
reads and stops where that one stops. All spans in it stand in the text as they say.
-/

namespace TextTemplate

namespace Text.Cursor

/-- The mark was taken on the way through the text, and the cursor is at the mark or behind it. -/
def Passed (text : String) (mark : Pos) (c : Cursor) : Prop :=
  ∃ b, (ofText text).Onward b ∧ b.pos = mark ∧ b.Onward c

variable {text : String} {mark : Pos} {c d : Cursor}

/-- The place of the cursor itself can be marked. -/
theorem Onward.passed (reached : (ofText text).Onward c) : c.Passed text c.pos :=
  ⟨c, reached, rfl, .refl c⟩

namespace Passed

/-- A mark stays behind while the cursor moves forward. -/
theorem onward (passed : c.Passed text mark) (moved : c.Onward d) : d.Passed text mark := by
  obtain ⟨b, reached, place, before⟩ := passed
  exact ⟨b, reached, place, before.trans moved⟩

/-- A cursor behind a mark is on the way through the text. -/
theorem reached (passed : c.Passed text mark) : (ofText text).Onward c := by
  obtain ⟨b, reached, -, before⟩ := passed
  exact reached.trans before

/-- A mark taken before can be captured from. -/
theorem capture_eq (passed : c.Passed text mark) : c.capture mark = .ok (c.since mark) := by
  obtain ⟨b, -, rfl, before⟩ := passed
  exact before.capture_eq

/-- What is captured from a mark stands in the text. -/
theorem standsIn (passed : c.Passed text mark) : (c.since mark).StandsIn text := by
  obtain ⟨b, reached, rfl, before⟩ := passed
  exact reached.standsIn before

end Passed

end Text.Cursor

namespace Markup

open Text Unicode

/-- The spans of the names in a lexeme. -/
def Lexeme.spans : Lexeme → List Span
  | .use path | .ifStart path | .elifTag path => [path.span]
  | .forStart var path => [var.span, path.span]
  | .endOfText | .raw _ | .invalid _ | .forEnd | .elseTag | .ifEnd => []

/-- The span of a token and those of the names in it. -/
def Token.spans (token : Token) : List Span := token.span :: token.lexeme.spans

namespace Checked

variable {α β : Type}

/-- Behind a reader that was not refused, what follows starts where it stopped. -/
theorem run_bind_of_ok {first : Checked α} {following : α → Checked β} {c d : Cursor} {value : α}
    (read : first.run c = .ok (value, d)) :
    (first >>= following).run c = (following value).run d := by
  rw [StateT.run_bind, read, Fault.ok_bind]

/-- Behind the mark, the checked reader is not refused and does what the scan does. The spans in
what it comes back with stand in the text. -/
def Sound (text : String) (mark : Pos) (spans : α → List Span) (checked : Checked α)
    (scan : Scan α) : Prop :=
  ∀ c, c.Passed text mark →
    checked.run c = .ok ((scan.run c).value, (scan.run c).cursor) ∧
      ∀ span ∈ spans (scan.run c).value, span.StandsIn text

namespace Sound

variable {text : String} {mark : Pos} {spans : α → List Span} {spans' : β → List Span}
  {checked : Checked α} {scan : Scan α}

/-- A value whose spans stand in the text may be given. -/
theorem pure {value : α} (stand : ∀ span ∈ spans value, span.StandsIn text) :
    Sound text mark spans (return value) (return value) :=
  fun _ _ => ⟨rfl, stand⟩

/-- Sound readers may follow each other. -/
theorem bind {following : α → Checked β} {next : α → Scan β}
    (first : Sound text mark spans checked scan)
    (second : ∀ value, (∀ span ∈ spans value, span.StandsIn text) →
      Sound text mark spans' (following value) (next value)) :
    Sound text mark spans' (checked >>= following) (scan >>= next) := by
  intro c passed
  obtain ⟨read, stand⟩ := first c passed
  have there := passed.onward (scan.onward c)
  obtain ⟨read', stand'⟩ := second _ stand _ there
  refine ⟨?_, stand'⟩
  rw [run_bind_of_ok read]
  exact read'

/-- Reading may start with a new mark at the cursor. -/
theorem from_here {following : Pos → Checked α} {next : Pos → Scan α}
    (start : ∀ start, Sound text start spans (following start) (next start)) :
    Sound text mark spans (here >>= following) (Scan.here >>= next) :=
  fun c passed => start c.pos c passed.reached.passed

/-- Tracing changes nothing. -/
theorem traced (sound : Sound text mark spans checked scan) (reader : Reader)
    (outcome : α → Outcome) : Sound text mark spans checked (scan.traced reader outcome) :=
  sound

end Sound

variable {text : String} {mark : Pos}

/-- Reading something without spans. -/
def spanless (_ : α) : List Span := []

/-- The spans of a name, where there is one. -/
def nameSpans (found : Option Ident) : List Span := found.toList.map (·.span)

/-- The spans of a path, where there is one. -/
def pathSpans (found : Option Path) : List Span := found.toList.map (·.span)

/-- The spans of a token, where there is one. -/
def tokenSpans (found : Option Token) : List Span := found.toList.flatMap (·.spans)

/-- Asking for the next character is sound. -/
theorem sound_current? : Sound text mark spanless current? Scan.current? :=
  fun _ _ => ⟨rfl, nofun⟩

/-- Passing a character is sound. -/
theorem sound_advance : Sound text mark spanless advance Scan.advance :=
  fun _ _ => ⟨rfl, nofun⟩

/-- Skipping a class of characters is sound. -/
theorem sound_skipWhile (member : Char → Bool) :
    Sound text mark spanless (skipWhile member) (Scan.skipWhile member) :=
  fun _ _ => ⟨rfl, nofun⟩

/-- Skipping blanks is sound. -/
theorem sound_skipBlanks : Sound text mark spanless skipBlanks Scan.skipBlanks :=
  sound_skipWhile isBlank

/-- Capturing from the mark is sound. -/
theorem sound_capture : Sound text mark (fun span => [span]) (capture mark) (Scan.since mark) := by
  intro c passed
  constructor
  · have read : (capture mark).run c = (request (c.capture mark)).run c := rfl
    rw [read, passed.capture_eq]
    rfl
  · intro span member
    obtain rfl := List.mem_singleton.mp member
    exact passed.standsIn

/-- A mark that lies ahead of the cursor is refused. -/
example : (capture ⟨1, 1, 2⟩).run (.ofText "") = .error (.misuse .captureAhead) := rfl

/-- Passing given characters is sound. -/
theorem sound_acceptAll (chars : List Char) :
    Sound text mark spanless (acceptAll chars) (Scan.acceptAll chars) := by
  induction chars with
  | nil => exact .pure nofun
  | cons char more ih =>
    refine sound_current?.bind fun next _ => ?_
    split
    · exact sound_advance.bind fun _ _ => ih
    · exact .pure nofun

/-- Reading literal text is sound. -/
theorem sound_readRaw : Sound text mark Token.spans (readRaw mark) (Scan.readRaw mark) := by
  have read : Sound text mark Token.spans (readRaw mark) _ :=
    (sound_skipWhile (· != '{')).bind fun _ _ => sound_capture.bind fun _ stands => .pure stands
  exact read.traced .raw .token

/-- Giving up a tag is sound. -/
theorem sound_readInvalid :
    Sound text mark Token.spans (readInvalid mark) (Scan.readInvalid mark) := by
  have read : Sound text mark Token.spans (readInvalid mark) _ :=
    sound_capture.bind fun _ stands => .pure stands
  exact read.traced .invalid .token

/-- Reading a keyword is sound. -/
theorem sound_readKeyword : Sound text mark spanless readKeyword Scan.readKeyword := by
  have read : Sound text mark spanless readKeyword _ :=
    .from_here fun start => (sound_skipWhile isLetter).bind fun _ _ =>
      sound_capture.bind fun _ _ => .pure nofun
  exact read.traced .keyword .keyword

/-- Reading a name is sound. -/
theorem sound_readName : Sound text mark nameSpans readName Scan.readName := by
  refine Sound.traced (.from_here fun start => sound_current?.bind fun next _ => ?_) .name .name
  cases next with
  | none => exact .pure nofun
  | some first =>
    dsimp only
    split
    · exact sound_advance.bind fun _ _ => (sound_skipWhile isIdentifierContinue).bind fun _ _ =>
        sound_capture.bind fun _ stands => .pure stands
    · exact .pure nofun

/-- With a round for every character that is left and one for the end, the names of a path are
read. -/
theorem run_names {c : Cursor} (reached : (Cursor.ofText text).Onward c) {rounds : Nat}
    (enough : c.rest.length < rounds) :
    (names rounds).run c = .ok ((Scan.namesAt c).value, (Scan.namesAt c).cursor) := by
  induction rounds generalizing c with
  | zero => exact absurd enough (Nat.not_lt_zero _)
  | succ rounds ih =>
    obtain ⟨read, -⟩ := sound_readName c reached.passed
    rw [names, run_bind_of_ok read]
    cases found : (Scan.readName.run c).value with
    | none =>
      rw [Scan.namesAt_of_none found]
      rfl
    | some ident =>
      have there := reached.trans (Scan.readName.onward c)
      have shorter := Scan.readName_shorter found
      dsimp only
      generalize h : (Scan.readName.run c).cursor = d at there shorter ⊢
      have asked : current?.run d = .ok (d.current?, d) := rfl
      rw [run_bind_of_ok asked]
      by_cases dot : d.current? = some '.'
      · have left : d.advance.rest.length < rounds := by
          rw [Cursor.rest_advance, List.length_tail]
          omega
        have further := ih (there.trans (Cursor.onward_advance d)) left
        have moved : advance.run d = .ok ((), d.advance) := rfl
        have more := Scan.namesAt_of_dot found (by rw [h, dot])
        rw [if_pos dot, run_bind_of_ok moved, run_bind_of_ok further, more, h]
        rfl
      · have last := Scan.namesAt_of_no_dot found (by rwa [h])
        rw [if_neg dot, last, h]
        rfl

/-- Reading the names of a path is sound. -/
theorem sound_readNames : Sound text mark spanless readNames Scan.readNames :=
  fun _ passed => ⟨run_names passed.reached (Nat.lt_succ_self _), nofun⟩

/-- Reading a path is sound: where it is made, there is a name. -/
theorem sound_readPath : Sound text mark pathSpans readPath Scan.readPath := by
  refine Sound.traced (.from_here fun start => sound_readNames.bind fun parts _ => ?_) .path .path
  cases parts with
  | nil => exact .pure nofun
  | cons root steps => exact sound_capture.bind fun _ stands => .pure stands

/-- Reading the end of a statement tag is sound. -/
theorem sound_readStatementClose :
    Sound text mark spanless readStatementClose Scan.readStatementClose :=
  sound_skipBlanks.bind fun _ _ => sound_acceptAll ['%', '}']

/-- Ending a tag whose names stand in the text is sound. -/
theorem sound_readBareTag {lexeme : Lexeme}
    (stand : ∀ span ∈ lexeme.spans, span.StandsIn text) :
    Sound text mark tokenSpans (readBareTag lexeme mark) (Scan.readBareTag lexeme mark) := by
  refine sound_readStatementClose.bind fun closed _ => ?_
  cases closed with
  | false => exact .pure nofun
  | true =>
    refine sound_capture.bind fun span stands => .pure ?_
    have whole : tokenSpans (some ⟨lexeme, span⟩) = span :: lexeme.spans := by
      simp [tokenSpans, Token.spans]
    rw [whole, List.forall_mem_cons]
    exact ⟨stands span (by simp), stand⟩

/-- Reading a loop head is sound. -/
theorem sound_readLoopHead :
    Sound text mark tokenSpans (readLoopHead mark) (Scan.readLoopHead mark) := by
  refine sound_skipBlanks.bind fun _ _ => sound_readName.bind fun var named => ?_
  cases var with
  | none => exact .pure nofun
  | some var =>
    refine sound_skipBlanks.bind fun _ _ => sound_readKeyword.bind fun keyword _ => ?_
    match keyword with
    | some .within =>
      refine sound_skipBlanks.bind fun _ _ => sound_readPath.bind fun path placed => ?_
      cases path with
      | none => exact .pure nofun
      | some path =>
        have stand : ∀ span ∈ (Lexeme.forStart var path).spans, span.StandsIn text := by
          rw [Lexeme.spans, List.forall_mem_cons]
          exact ⟨named var.span (by simp [nameSpans]), placed⟩
        exact sound_readBareTag stand
    | none | some .loop | some .endLoop | some .condition | some .elseCondition | some .otherwise
    | some .endCondition => exact .pure nofun

/-- Reading a condition is sound. -/
theorem sound_readCondition {lexeme : Path → Lexeme}
    (spans : ∀ path, (lexeme path).spans = [path.span]) :
    Sound text mark tokenSpans (readCondition lexeme mark) (Scan.readCondition lexeme mark) := by
  refine sound_skipBlanks.bind fun _ _ => sound_readPath.bind fun path placed => ?_
  cases path with
  | none => exact .pure nofun
  | some path =>
    have stand : ∀ span ∈ (lexeme path).spans, span.StandsIn text := by
      rw [spans]
      exact placed
    exact sound_readBareTag stand

/-- Reading the rest of a tag is sound, whichever keyword opens it. -/
theorem sound_readTag (keyword : Keyword) :
    Sound text mark tokenSpans (readTag mark keyword) (Scan.readTag mark keyword) := by
  cases keyword with
  | loop => exact sound_readLoopHead
  | within => exact .pure nofun
  | endLoop | otherwise | endCondition => exact sound_readBareTag fun _ none => nomatch none
  | condition | elseCondition => exact sound_readCondition fun _ => rfl

/-- Reading a statement is sound. -/
theorem sound_readStatement :
    Sound text mark Token.spans (readStatement mark) (Scan.readStatement mark) := by
  refine sound_advance.bind fun _ _ => sound_skipBlanks.bind fun _ _ =>
    sound_readKeyword.bind fun keyword _ => ?_
  cases keyword with
  | none => exact sound_readInvalid
  | some keyword =>
    refine (sound_readTag keyword).bind fun tag stand => ?_
    cases tag with
    | none => exact sound_readInvalid
    | some tag => exact .pure (by simpa [tokenSpans] using stand)

/-- Reading an interpolation is sound. -/
theorem sound_readInterpolation :
    Sound text mark Token.spans (readInterpolation mark) (Scan.readInterpolation mark) := by
  refine sound_advance.bind fun _ _ => sound_skipBlanks.bind fun _ _ =>
    sound_readPath.bind fun path placed => ?_
  cases path with
  | none => exact sound_readRaw
  | some path =>
    refine sound_skipBlanks.bind fun _ _ => (sound_acceptAll ['}', '}']).bind fun closed _ => ?_
    cases closed with
    | false => exact sound_readRaw
    | true =>
      refine sound_capture.bind fun span stands => .pure ?_
      have whole : Token.spans ⟨.use path, span⟩ = [span, path.span] := rfl
      rw [whole, List.forall_mem_cons]
      exact ⟨stands span (by simp), placed⟩

/-- Reading what follows an opening brace is sound. -/
theorem sound_readAfterBrace :
    Sound text mark Token.spans (readAfterBrace mark) (Scan.readAfterBrace mark) := by
  refine sound_current?.bind fun next _ => ?_
  cases next with
  | none => exact sound_readRaw
  | some char =>
    by_cases brace : char = '{'
    · subst brace
      exact sound_readInterpolation
    · by_cases percent : char = '%'
      · subst percent
        exact sound_readStatement
      · simpa [brace, percent] using sound_readRaw

/-- Reading a token is sound. -/
theorem sound_readToken : Sound text mark Token.spans readToken Scan.readToken := by
  refine Sound.traced (.from_here fun start => sound_current?.bind fun next _ => ?_) .token .token
  cases next with
  | none => exact sound_capture.bind fun _ stands => .pure stands
  | some char =>
    by_cases brace : char = '{'
    · subst brace
      exact sound_advance.bind fun _ _ => sound_readAfterBrace
    · simpa [brace] using sound_readRaw

end Checked

/-- All spans in the tokens of a text stand in it as they say. -/
theorem standsIn_of_mem_tokenize {text : String} {token : Token} (member : token ∈ tokenize text) :
    ∀ span ∈ token.spans, span.StandsIn text := by
  obtain ⟨c, reached, rfl⟩ := exists_cursor_of_mem_tokenize member
  exact (Checked.sound_readToken c reached.passed).2

end Markup

end TextTemplate
