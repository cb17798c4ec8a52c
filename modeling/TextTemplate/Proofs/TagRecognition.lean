import TextTemplate.Proofs.Rescanning
import TextTemplate.Proofs.TokenPositions

/-!
# Tags are recognised exactly

What a token is hangs on the text ahead of the place where it starts, and on nothing else. Where a
front part of that text is written as a tag, the token is that tag and covers just that part; no
other part is written as a tag. Where no front part is, the token is an invalid tag behind a brace
and a percent sign, the end of the text where nothing is left, and literal text elsewhere.
-/

namespace TextTemplate.Markup

open Text Unicode

/-- The kinds of tokens that are tags. -/
def TokenKind.tags : List TokenKind :=
  [.use, .forStart, .forEnd, .ifStart, .elifTag, .elseTag, .ifEnd]

/-- A lexeme is a tag when its kind is a kind of tags. -/
theorem isTag_iff_kind_mem_tags (lexeme : Lexeme) :
    lexeme.isTag = true ↔ lexeme.kind ∈ TokenKind.tags := by
  cases lexeme <;> simp [Lexeme.isTag, Lexeme.kind, TokenKind.tags]

/-- The kind of a lexeme does not hang on places. -/
theorem kind_eq_of_bare {lexeme lexeme' : Lexeme} (same : lexeme.bare = lexeme'.bare) :
    lexeme.kind = lexeme'.kind := by
  have kinds := congrArg Lexeme.kind same
  simpa only [Lexeme.bare, Lexeme.kind_mapSpans] using kinds

/-- The kind of a token that is no tag, from the text ahead. -/
def kindAhead (ahead : List Char) : TokenKind :=
  if ahead = [] then .endOfText else if ['\x7b', '%'] <+: ahead then .invalid else .raw

namespace Scan

/-- A statement that cannot be read is an invalid tag. -/
theorem kind_of_readStatement {start : Pos} {c d : Cursor} {token : Token}
    (read : (readStatement start).Reads c token d) (other : token.lexeme.isTag = false) :
    token.kind = .invalid := by
  obtain ⟨_, c₁, -, read⟩ := reads_bind.mp read
  obtain ⟨_, c₂, -, read⟩ := reads_bind.mp read
  obtain ⟨keyword, c₃, -, read⟩ := reads_bind.mp read
  cases keyword with
  | none => exact read.1 ▸ rfl
  | some keyword =>
    obtain ⟨found, c₄, followed, read⟩ := reads_bind.mp read
    cases found with
    | none => exact read.1 ▸ rfl
    | some found =>
      have tag : found.lexeme.isTag = true :=
        (readTag_yields start keyword c₃ found followed.1).2
      have same : found = token := (reads_pure.mp read).1
      rw [← same, tag] at other
      contradiction

/-- A place of a value that cannot be read is literal text. -/
theorem kind_of_readInterpolation {start : Pos} {c d : Cursor} {token : Token}
    (read : (readInterpolation start).Reads c token d) (other : token.lexeme.isTag = false) :
    token.kind = .raw := by
  obtain ⟨_, c₁, -, read⟩ := reads_bind.mp read
  obtain ⟨_, c₂, -, read⟩ := reads_bind.mp read
  obtain ⟨path, c₃, -, read⟩ := reads_bind.mp read
  cases path with
  | none => exact read.1 ▸ rfl
  | some path =>
    obtain ⟨_, c₄, -, read⟩ := reads_bind.mp read
    obtain ⟨closed, c₅, -, read⟩ := reads_bind.mp read
    cases closed with
    | false => exact read.1 ▸ rfl
    | true =>
      obtain ⟨span, c₆, -, read⟩ := reads_bind.mp read
      have same : ⟨.use path, span⟩ = token := (reads_pure.mp read).1
      rw [← same] at other
      contradiction

/-- Behind a brace, what is no tag is an invalid tag or literal text, as the next character says. -/
theorem kind_of_readAfterBrace {start : Pos} {c d : Cursor} {token : Token}
    (read : (readAfterBrace start).Reads c token d) (other : token.lexeme.isTag = false) :
    token.kind = kindAhead ('\x7b' :: c.rest) := by
  obtain ⟨_, _, ⟨rfl, rfl⟩, read⟩ := reads_bind.mp read
  split at read
  · next brace =>
    obtain ⟨rest, whole⟩ := List.head?_eq_some_iff.mp brace
    rw [kind_of_readInterpolation read other, whole]
    simp [kindAhead]
  · next percent =>
    obtain ⟨rest, whole⟩ := List.head?_eq_some_iff.mp percent
    rw [kind_of_readStatement read other, whole]
    simp [kindAhead]
  · next brace percent =>
    have literal : token.kind = .raw := read.1 ▸ rfl
    have alone : ¬['\x7b', '%'] <+: '\x7b' :: c.rest := by
      rintro ⟨tail, whole⟩
      have next : c.rest = '%' :: tail := (List.cons.inj whole).2.symm
      exact percent (rest_split next).1
    rw [literal, kindAhead, if_neg (List.cons_ne_nil _ _), if_neg alone]

/-- What is no tag has the kind that the text ahead says. -/
theorem kind_of_readToken {c d : Cursor} {token : Token} (read : readToken.Reads c token d)
    (other : token.lexeme.isTag = false) : token.kind = kindAhead c.rest := by
  obtain ⟨_, _, ⟨rfl, rfl⟩, read⟩ := reads_bind.mp (reads_traced.mp read)
  obtain ⟨_, _, ⟨rfl, rfl⟩, read⟩ := reads_bind.mp read
  split at read
  · next ended =>
    have nothing : c.rest = [] := List.head?_eq_none_iff.mp ended
    obtain ⟨span, c₁, -, read⟩ := reads_bind.mp read
    have same : ⟨.endOfText, span⟩ = token := (reads_pure.mp read).1
    rw [← same, nothing]
    rfl
  · next brace =>
    obtain ⟨_, _, ⟨rfl, rfl⟩, read⟩ := reads_bind.mp read
    obtain ⟨rest, whole⟩ := List.head?_eq_some_iff.mp brace
    change c.rest = _ at whole
    have kind := kind_of_readAfterBrace read other
    change token.kind = kindAhead ('\x7b' :: c.advance.rest) at kind
    rw [(rest_split whole).2] at kind
    rw [kind, whole]
  · next first brace next =>
    obtain ⟨rest, whole⟩ := List.head?_eq_some_iff.mp next
    change c.rest = _ at whole
    have literal : token.kind = .raw := read.1 ▸ rfl
    have no_brace : '\x7b' ≠ first := fun same => brace same.symm
    rw [literal, whole]
    simp [kindAhead, no_brace]

/-- Where a front part of the text ahead is written as a tag, the token read covers just that part
and says what is written. -/
theorem readToken_of_tagText {c : Cursor} {written : List Char} {lexeme : Lexeme}
    (front : written <+: c.rest) (tag : TagText written lexeme) :
    (readToken.run c).value.span.raw.toList = written ∧
      (readToken.run c).value.lexeme.bare = lexeme.bare := by
  obtain ⟨tail, whole⟩ := front
  obtain ⟨d, token, ⟨value, stop⟩, same, rest⟩ := readToken_complete tag whole.symm
  have more : c.rest ≠ [] := by
    have first := tag.head?_eq
    rintro ended
    rw [ended] at whole
    rw [(List.append_eq_nil_iff.mp whole).1] at first
    contradiction
  have covers := rest_eq_readToken more
  rw [stop, rest, ← whole] at covers
  have covered := List.append_cancel_right covers
  rw [value] at covered ⊢
  exact ⟨covered.symm, same⟩

end Scan

/-- Tags are recognised exactly. For a token of a text and the text ahead of the place where it
starts: the token is a tag of some kind exactly when a front part of the text ahead is written as
such a tag. There is one such front part at most, the token covers just it, and the names in the
token are the names written there. If there is none, the token is an invalid tag exactly when a
brace and a percent sign are ahead, the end of the text exactly when nothing is ahead, and literal
text in all other cases. -/
theorem tokenize_recognises {text : String} {token : Token} (member : token ∈ tokenize text) :
    (∀ kind ∈ TokenKind.tags, token.kind = kind ↔
      ∃ written lexeme, written <+: text.toList.drop token.span.start.offset ∧
        TagText written lexeme ∧ lexeme.kind = kind) ∧
    (∀ written lexeme, written <+: text.toList.drop token.span.start.offset →
      TagText written lexeme →
        token.span.raw.toList = written ∧ token.lexeme.bare = lexeme.bare) ∧
    ((∀ written lexeme, written <+: text.toList.drop token.span.start.offset →
      ¬TagText written lexeme) →
        (token.kind = .invalid ↔ ['\x7b', '%'] <+: text.toList.drop token.span.start.offset) ∧
        (token.kind = .endOfText ↔ text.toList.drop token.span.start.offset = []) ∧
        (token.kind = .raw ↔ text.toList.drop token.span.start.offset ≠ [] ∧
          ¬['\x7b', '%'] <+: text.toList.drop token.span.start.offset)) := by
  obtain ⟨c, reached, rfl⟩ := exists_cursor_of_mem_tokenize member
  have start : (Scan.readToken.run c).value.span.start = c.pos := by
    rw [Scan.span_readToken]
    rfl
  have ahead : text.toList.drop (Scan.readToken.run c).value.span.start.offset = c.rest := by
    rw [start, reached.rest_eq_drop]
  rw [ahead]
  have read := Scan.readToken.reads_run c
  have sound (tag : (Scan.readToken.run c).value.lexeme.isTag = true) :
      ∃ written, written <+: c.rest ∧ TagText written (Scan.readToken.run c).value.lexeme := by
    obtain ⟨written, tagText, whole⟩ := Scan.readToken_sound read tag
    exact ⟨written, ⟨_, whole.symm⟩, tagText⟩
  refine ⟨fun kind tags => ⟨fun same => ?_, ?_⟩, fun written lexeme => Scan.readToken_of_tagText,
    fun none => ?_⟩
  · have tag : (Scan.readToken.run c).value.lexeme.isTag = true := by
      have kinds : (Scan.readToken.run c).value.lexeme.kind = kind := same
      rwa [isTag_iff_kind_mem_tags, kinds]
    obtain ⟨written, front, tagText⟩ := sound tag
    exact ⟨written, _, front, tagText, same⟩
  · rintro ⟨written, lexeme, front, tagText, rfl⟩
    exact kind_eq_of_bare (Scan.readToken_of_tagText front tagText).2
  · have other : (Scan.readToken.run c).value.lexeme.isTag = false := by
      rw [Bool.eq_false_iff]
      intro tag
      obtain ⟨written, front, tagText⟩ := sound tag
      exact none written _ front tagText
    rw [Scan.kind_of_readToken read other, kindAhead]
    by_cases ended : c.rest = []
    · simp [ended]
    · by_cases opens : ['\x7b', '%'] <+: c.rest
      · simp [ended, opens]
      · simp [ended, opens]

/-- Letters end where a name goes on, so a keyword and a name may stand together: the tag that
starts the text is a loop head, and only the whole of it is written as a tag. -/
theorem tokenize_recognises_joined_words :
    let text := statement "for_ in_x" ++ interpolation "x."
    let token : Token :=
      ⟨.forStart ⟨"_", ⟨"_", ⟨6, 1, 7⟩, ⟨7, 1, 8⟩⟩⟩ ⟨"_x", [], ⟨"_x", ⟨10, 1, 11⟩, ⟨12, 1, 13⟩⟩⟩,
        ⟨statement "for_ in_x", ⟨0, 1, 1⟩, ⟨15, 1, 16⟩⟩⟩
    token ∈ tokenize text ∧
      (∃ written lexeme, written <+: text.toList ∧ TagText written lexeme ∧
        lexeme.kind = .forStart) ∧
      ∀ written lexeme, written <+: text.toList → TagText written lexeme →
        (statement "for_ in_x").toList = written := by
  intro text token
  have member : token ∈ tokenize text := by decide +kernel
  have recognised := tokenize_recognises member
  have loop : TokenKind.forStart ∈ TokenKind.tags := by decide
  have some := (recognised.1 .forStart loop).mp rfl
  have only := recognised.2.1
  exact ⟨member, some, fun written lexeme front tag => (only written lexeme front tag).1⟩

end TextTemplate.Markup
