import TextTemplate.Markup.Tokenize

/-!
# The tokens of a text tile it

Every token covers what was read for it, from where reading started up to where it stopped. So the
spans of all tokens, one after the other, are the text again. Only the last token marks the end of
the text, and every other one covers at least one character.
-/

namespace TextTemplate.Text.Cursor

/-- Passing a character puts it in front of the cursor. -/
theorem before_advance (c : Cursor) : c.advance.before = (c.rest.take 1).reverse ++ c.before := by
  match c with
  | ⟨_, [], _, _⟩ => rfl
  | ⟨_, _ :: _, _, _⟩ => rfl

/-- Passing characters puts them in front of the cursor. -/
theorem before_advanceBy (n : Nat) (c : Cursor) :
    (c.advanceBy n).before = (c.rest.take n).reverse ++ c.before := by
  induction n generalizing c with
  | zero => simp [advanceBy]
  | succ n ih =>
    rw [advanceBy, ih, before_advance, rest_advance]
    cases c.rest <;> simp

/-- Skipping a class of characters puts the longest run of them in front of the cursor. -/
theorem before_skipWhile (member : Char → Bool) (c : Cursor) :
    (c.skipWhile member).before = (c.rest.takeWhile member).reverse ++ c.before := by
  rw [skipWhile, before_advanceBy]
  congr 2
  exact List.prefix_iff_eq_take.mp (List.takeWhile_prefix member) |>.symm

/-- What a span covers is what was passed. -/
theorem Onward.since_raw {c d : Cursor} (h : c.Onward d) :
    c.rest = (d.since c.pos).raw.toList ++ d.rest := by
  obtain ⟨passed, rest, before⟩ := h
  rw [since_eq before]
  simpa using rest

/-- Nothing lies between a cursor and itself. -/
theorem since_self (c : Cursor) : c.since c.pos = .empty c.pos := by
  simp [since, Span.empty]

end TextTemplate.Text.Cursor

namespace TextTemplate.Markup

open Text

/-- A token read from `start` on, with the cursor now behind it: it covers everything in between,
literal text and invalid tags repeat what they cover, and it does not mark the end of the text. -/
structure Token.ReadFrom (start : Pos) (c : Cursor) (token : Token) : Prop where
  /-- The token covers what lies between. -/
  span_eq : token.span = c.since start
  /-- Literal text is what the token covers. -/
  raw_eq : ∀ text, token.lexeme = .raw text → text = token.span.raw
  /-- An invalid tag is what the token covers. -/
  invalid_eq : ∀ text, token.lexeme = .invalid text → text = token.span.raw
  /-- The token is not the end of the text. -/
  not_end : token.lexeme ≠ .endOfText

/-- A tag that was read, or the place of a value. -/
def Lexeme.isTag : Lexeme → Bool
  | .use _ | .forStart _ _ | .forEnd | .ifStart _ | .elifTag _ | .elseTag | .ifEnd => true
  | .endOfText | .raw _ | .invalid _ => false

/-- A tag covers what was read for it. -/
theorem Token.readFrom_tag {lexeme : Lexeme} (tag : lexeme.isTag = true) (start : Pos)
    (c : Cursor) : Token.ReadFrom start c ⟨lexeme, c.since start⟩ := by
  refine ⟨rfl, ?_, ?_, ?_⟩
  · rintro text rfl
    exact nomatch tag
  · rintro text rfl
    exact nomatch tag
  · rintro rfl
    exact nomatch tag

namespace Scan

variable {α β : Type}

/-- Wherever the scan is run, the value it comes back with is `good` for the cursor behind it. -/
def Yields (good : Cursor → α → Prop) (scan : Scan α) : Prop :=
  ∀ c, good (scan.run c).cursor (scan.run c).value

/-- What every continuation of a scan yields, the two in a row yield. -/
theorem Yields.bind {good : Cursor → β → Prop} {first : Scan α} {next : α → Scan β}
    (following : ∀ value, Yields good (next value)) : Yields good (first >>= next) :=
  fun _ => following _ _

/-- What a scan yields, it yields when it is traced. -/
theorem Yields.traced {good : Cursor → α → Prop} {scan : Scan α} (reader : Reader)
    (outcome : α → Outcome) (yields : Yields good scan) :
    Yields good (scan.traced reader outcome) :=
  yields

/-- Where a scan yields a value or nothing, the value is a tag read from `start` on. -/
def YieldsTag (start : Pos) (scan : Scan (Option Token)) : Prop :=
  Yields (fun c found => ∀ token, found = some token →
    token.ReadFrom start c ∧ token.lexeme.isTag = true) scan

/-- Coming back with nothing leaves nothing to show. -/
theorem yieldsTag_none (start : Pos) : YieldsTag start (return none) :=
  fun _ _ absent => nomatch absent

/-- A tag made at the end of reading covers what was read. -/
theorem yieldsTag_since {lexeme : Lexeme} (tag : lexeme.isTag = true) (start : Pos) :
    YieldsTag start (do return some ⟨lexeme, ← since start⟩) := by
  rintro c token found
  obtain rfl := Option.some.inj found
  exact ⟨Token.readFrom_tag tag start c, tag⟩

/-- Literal text covers what was read. -/
theorem readRaw_yields (start : Pos) : Yields (fun c token => token.ReadFrom start c)
    (readRaw start) :=
  fun _ => ⟨rfl, fun _ same => (Lexeme.raw.inj same).symm, fun _ => nofun, nofun⟩

/-- An invalid tag covers what was read. -/
theorem readInvalid_yields (start : Pos) : Yields (fun c token => token.ReadFrom start c)
    (readInvalid start) :=
  fun _ => ⟨rfl, fun _ => nofun, fun _ same => (Lexeme.invalid.inj same).symm, nofun⟩

/-- A tag that is complete but for its end covers what was read for it. -/
theorem readBareTag_yields {lexeme : Lexeme} (tag : lexeme.isTag = true) (start : Pos) :
    YieldsTag start (readBareTag lexeme start) := by
  refine Yields.bind fun closed => ?_
  cases closed with
  | false => exact yieldsTag_none start
  | true => exact yieldsTag_since tag start

/-- A loop head covers what was read for it. -/
theorem readLoopHead_yields (start : Pos) : YieldsTag start (readLoopHead start) := by
  refine Yields.bind fun _ => Yields.bind fun var => ?_
  cases var with
  | none => exact yieldsTag_none start
  | some var =>
    refine Yields.bind fun _ => Yields.bind fun keyword => ?_
    split
    · refine Yields.bind fun _ => Yields.bind fun path => ?_
      cases path with
      | none => exact yieldsTag_none start
      | some path => exact readBareTag_yields rfl start
    · exact yieldsTag_none start

/-- A condition covers what was read for it. -/
theorem readCondition_yields {lexeme : Path → Lexeme} (tag : ∀ path, (lexeme path).isTag = true)
    (start : Pos) : YieldsTag start (readCondition lexeme start) := by
  refine Yields.bind fun _ => Yields.bind fun path => ?_
  cases path with
  | none => exact yieldsTag_none start
  | some path => exact readBareTag_yields (tag path) start

/-- Every statement tag covers what was read for it. -/
theorem readTag_yields (start : Pos) (keyword : Keyword) :
    YieldsTag start (readTag start keyword) := by
  cases keyword with
  | loop => exact readLoopHead_yields start
  | within => exact yieldsTag_none start
  | endLoop => exact readBareTag_yields rfl start
  | condition => exact readCondition_yields (fun _ => rfl) start
  | elseCondition => exact readCondition_yields (fun _ => rfl) start
  | otherwise => exact readBareTag_yields rfl start
  | endCondition => exact readBareTag_yields rfl start

/-- A statement, readable or not, covers what was read for it. -/
theorem readStatement_yields (start : Pos) : Yields (fun c token => token.ReadFrom start c)
    (readStatement start) := by
  refine Yields.bind fun _ => Yields.bind fun _ => Yields.bind fun keyword => ?_
  cases keyword with
  | none => exact readInvalid_yields start
  | some keyword =>
    intro c
    have read := readTag_yields start keyword c
    simp only [run_bind]
    cases found : ((readTag start keyword).run c).value with
    | none => exact readInvalid_yields start _
    | some tag => exact (read tag found).1

/-- An interpolation, readable or not, covers what was read for it. -/
theorem readInterpolation_yields (start : Pos) : Yields (fun c token => token.ReadFrom start c)
    (readInterpolation start) := by
  refine Yields.bind fun _ => Yields.bind fun _ => Yields.bind fun path => ?_
  cases path with
  | none => exact readRaw_yields start
  | some path =>
    refine Yields.bind fun _ => Yields.bind fun closed => ?_
    cases closed with
    | false => exact readRaw_yields start
    | true => exact fun c => Token.readFrom_tag rfl start c

/-- What follows an opening brace covers what was read for it. -/
theorem readAfterBrace_yields (start : Pos) : Yields (fun c token => token.ReadFrom start c)
    (readAfterBrace start) := by
  refine Yields.bind fun next => ?_
  split
  · exact readInterpolation_yields start
  · exact readStatement_yields start
  · exact readRaw_yields start

/-- At the end of the text nothing is read but its mark. -/
theorem readToken_at_end {c : Cursor} (ended : c.rest = []) :
    (readToken.run c).value = ⟨.endOfText, c.since c.pos⟩ ∧ (readToken.run c).cursor = c := by
  rw [readToken, value_traced, cursor_traced]
  simp [Cursor.current?, ended]

/-- Before the end of the text a token covers what was read for it. -/
theorem readToken_readFrom {c : Cursor} (more : c.rest ≠ []) :
    (readToken.run c).value.ReadFrom c.pos (readToken.run c).cursor := by
  rw [readToken, value_traced, cursor_traced]
  cases h : c.rest with
  | nil => exact absurd h more
  | cons next rest =>
    simp only [run_bind, run_here, run_current?, Cursor.current?, h, List.head?_cons]
    split
    · contradiction
    · exact readAfterBrace_yields _ _
    · exact readRaw_yields _ _

/-- The end of the text is read exactly at the end. -/
theorem readToken_endOfText_iff (c : Cursor) :
    (readToken.run c).value.lexeme = .endOfText ↔ c.rest = [] := by
  constructor
  · intro last
    by_cases ended : c.rest = []
    · exact ended
    · exact absurd last (readToken_readFrom ended).not_end
  · intro ended
    rw [(readToken_at_end ended).1]

/-- Where the end of the text was read, the cursor is at the end. -/
theorem rest_of_endOfText (c : Cursor) (last : (readToken.run c).value.lexeme = .endOfText) :
    (readToken.run c).cursor.rest = [] := by
  have ended := (readToken_endOfText_iff c).mp last
  have stays := (readToken_at_end ended).2
  rwa [← stays] at ended

end Scan

/-- At the end of the text one more token is read. -/
theorem readingsFrom_of_end {c : Cursor} (ended : c.rest = []) :
    readingsFrom c = [Scan.readToken.run c] := by
  rw [readingsFrom, if_pos ended]

/-- Before the end of the text a token is read, and then all others behind it. -/
theorem readingsFrom_of_more {c : Cursor} (more : c.rest ≠ []) :
    readingsFrom c = Scan.readToken.run c :: readingsFrom (Scan.readToken.run c).cursor := by
  rw [readingsFrom, if_neg more]

/-- A token from inside a text: it is not the end of the text, covers at least one character, and
repeats what it covers where it is literal text or an invalid tag. -/
structure Token.Proper (token : Token) : Prop where
  /-- The token is not the end of the text. -/
  not_end : token.lexeme ≠ .endOfText
  /-- The token covers something. -/
  covers : token.span.raw ≠ ""
  /-- Literal text is what the token covers. -/
  raw_eq : ∀ text, token.lexeme = .raw text → text = token.span.raw
  /-- An invalid tag is what the token covers. -/
  invalid_eq : ∀ text, token.lexeme = .invalid text → text = token.span.raw

namespace Scan

/-- Before the end of the text, the token read and what is left make up what was to be read. -/
theorem rest_eq_readToken {c : Cursor} (more : c.rest ≠ []) :
    c.rest = (readToken.run c).value.span.raw.toList ++ (readToken.run c).cursor.rest := by
  rw [(readToken_readFrom more).span_eq]
  exact (readToken.onward c).since_raw

/-- Before the end of the text a proper token is read. -/
theorem readToken_proper {c : Cursor} (more : c.rest ≠ []) :
    (readToken.run c).value.Proper := by
  have read := readToken_readFrom more
  refine ⟨read.not_end, fun nothing => ?_, read.raw_eq, read.invalid_eq⟩
  have parts := rest_eq_readToken more
  have shorter := readToken_shorter more
  rw [nothing] at parts
  rw [← show c.rest = (readToken.run c).cursor.rest by simpa using parts] at shorter
  exact Nat.lt_irrefl _ shorter

end Scan

/-- The tokens from a cursor on: proper ones that cover all that is to be read, and one that marks
the end. -/
theorem exists_content_readingsFrom (c : Cursor) :
    ∃ content stop, (readingsFrom c).map (·.value) = content ++ [⟨.endOfText, .empty stop⟩] ∧
      (∀ token ∈ content, token.Proper) ∧
      content.flatMap (·.span.raw.toList) = c.rest := by
  fun_induction readingsFrom c with
  | case1 c reading ended =>
    obtain ⟨value, -⟩ := Scan.readToken_at_end ended
    refine ⟨[], c.pos, ?_, by simp, by simp [ended]⟩
    simp [reading, value, Cursor.since_self]
  | case2 c reading more ih =>
    obtain ⟨content, stop, values, proper, covered⟩ := ih
    refine ⟨reading.value :: content, stop, by simp [values], ?_, ?_⟩
    · intro token member
      rcases List.mem_cons.mp member with rfl | member
      · exact Scan.readToken_proper more
      · exact proper token member
    · rw [List.flatMap_cons, covered]
      exact (Scan.rest_eq_readToken more).symm

/-- The tokens of a text in front of the one that marks its end. -/
def contentTokens (text : String) : List Token := (tokenize text).dropLast

/-- A text has its content and then its end; the content is proper and covers the text. -/
theorem contentTokens_spec (text : String) :
    (∃ stop, tokenize text = contentTokens text ++ [⟨.endOfText, .empty stop⟩]) ∧
      (∀ token ∈ contentTokens text, token.Proper) ∧
      (contentTokens text).flatMap (·.span.raw.toList) = text.toList := by
  obtain ⟨content, stop, values, proper, covered⟩ := exists_content_readingsFrom (.ofText text)
  have split : tokenize text = content ++ [⟨.endOfText, .empty stop⟩] := values
  have same : contentTokens text = content := by rw [contentTokens, split, List.dropLast_concat]
  rw [same]
  exact ⟨⟨stop, split⟩, proper, covered⟩

/-- All tokens in front of the end are proper. -/
theorem proper_of_mem_contentTokens {text : String} {token : Token}
    (member : token ∈ contentTokens text) : token.Proper :=
  (contentTokens_spec text).2.1 token member

/-- The spans of the tokens of a text, one after the other, are the text. -/
theorem join_raw_contentTokens (text : String) :
    String.join ((contentTokens text).map (·.span.raw)) = text := by
  rw [← String.toList_inj, String.toList_join, List.flatMap_map]
  exact (contentTokens_spec text).2.2

end TextTemplate.Markup
