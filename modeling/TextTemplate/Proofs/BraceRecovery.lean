import TextTemplate.Proofs.InnerBraces
import TextTemplate.Proofs.SoundReading
import TextTemplate.Proofs.TagRecognition

/-!
# Reading recovers at the next brace

Literal text reaches up to the next opening brace or to the end of the text, wherever it was that an
interpolation had been given up. No token takes in a brace that could open another one. So every
opening brace of a text is the start of a token, or the second of two braces that one starts with.

An invalid tag stops where it was given up, so literal text may follow it in front of the next
brace.
-/

namespace TextTemplate.Markup

open Text

/-- A brace is at the front of what a token covers, or right behind another one there. -/
theorem BracesInFront.eq_zero_or_one {covered : List Char} (braces : BracesInFront covered)
    {index : Nat} (brace : covered[index]? = some '\x7b') :
    index = 0 ∨ index = 1 ∧ ['\x7b', '\x7b'] <+: covered := by
  rcases braces with clean | ⟨more, rfl, clean⟩
  · cases index with
    | zero => exact .inl rfl
    | succ index =>
      have later : covered.tail[index]? = some '\x7b' := by rw [List.getElem?_tail, brace]
      exact absurd (List.mem_of_getElem? later) clean
  · match index with
    | 0 => exact .inl rfl
    | 1 => exact .inr ⟨rfl, List.prefix_append ['\x7b', '\x7b'] more⟩
    | index + 2 =>
      have later : more[index]? = some '\x7b' := brace
      exact absurd (List.mem_of_getElem? later) clean

/-- With the cursor behind it, a token of literal text is followed by a brace or by nothing. -/
def Token.EndsAtBrace (c : Cursor) (token : Token) : Prop :=
  token.kind = .raw → ∀ next, c.current? = some next → next = '\x7b'

namespace Scan

/-- Literal text ends at a brace. -/
theorem readRaw_endsAtBrace (start : Pos) : Yields Token.EndsAtBrace (readRaw start) := by
  intro c _ next first
  have stopped := apart_dropWhile (· != '\x7b') c.rest next
  rw [← Cursor.rest_skipWhile] at stopped
  simpa using stopped first

/-- A token made at the end of reading may end anywhere if it is no literal text. -/
theorem endsAtBrace_since {lexeme : Lexeme} (other : lexeme.kind ≠ .raw) (start : Pos) :
    Yields Token.EndsAtBrace (do return ⟨lexeme, ← since start⟩) :=
  fun _ raw => absurd raw other

/-- A statement, readable or not, is no literal text. -/
theorem readStatement_endsAtBrace (start : Pos) :
    Yields Token.EndsAtBrace (readStatement start) := by
  intro c raw
  have other : ((readStatement start).run c).value.lexeme.isTag = false := by
    rw [Bool.eq_false_iff, ne_eq, isTag_iff_kind_mem_tags]
    change ((readStatement start).run c).value.kind ∉ _
    rw [raw]
    decide
  rw [kind_of_readStatement ((readStatement start).reads_run c) other] at raw
  contradiction

/-- An interpolation that is given up ends at a brace. -/
theorem readInterpolation_endsAtBrace (start : Pos) :
    Yields Token.EndsAtBrace (readInterpolation start) := by
  refine Yields.bind fun _ => Yields.bind fun _ => Yields.bind fun path => ?_
  cases path with
  | none => exact readRaw_endsAtBrace start
  | some path =>
    refine Yields.bind fun _ => Yields.bind fun closed => ?_
    cases closed with
    | false => exact readRaw_endsAtBrace start
    | true => exact endsAtBrace_since (by simp [Lexeme.kind]) start

/-- What follows an opening brace ends at a brace if it is literal text. -/
theorem readAfterBrace_endsAtBrace (start : Pos) :
    Yields Token.EndsAtBrace (readAfterBrace start) := by
  refine Yields.bind fun next => ?_
  split
  · exact readInterpolation_endsAtBrace start
  · exact readStatement_endsAtBrace start
  · exact readRaw_endsAtBrace start

/-- A token of literal text ends at a brace. -/
theorem readToken_endsAtBrace : Yields Token.EndsAtBrace readToken := by
  refine .traced .token .token (.bind fun start => .bind fun next => ?_)
  split
  · exact endsAtBrace_since (by simp [Lexeme.kind]) start
  · exact Yields.bind fun _ => readAfterBrace_endsAtBrace start
  · exact readRaw_endsAtBrace start

end Scan

/-- Every character behind a cursor is covered by a token read from there on. -/
theorem exists_reading_over {text : String} {c : Cursor} (reached : (Cursor.ofText text).Onward c)
    {offset : Nat} (ahead : c.pos.offset ≤ offset) (inside : offset < text.length) :
    ∃ reading ∈ readingsFrom c, reading.value.span.start.offset ≤ offset ∧
      offset < reading.value.span.stop.offset := by
  fun_induction readingsFrom c with
  | case1 c reading ended =>
    have parts := reached.offset_add_rest
    rw [ended, List.length_nil] at parts
    omega
  | case2 c reading more ih =>
    have start : reading.value.span.start = c.pos := Scan.start_readToken c
    have stop : reading.value.span.stop = reading.cursor.pos := Scan.stop_readToken c
    by_cases here : offset < reading.cursor.pos.offset
    · exact ⟨reading, List.mem_cons_self, by rwa [start], by rwa [stop]⟩
    · have onward := reached.trans (Scan.readToken.onward c)
      obtain ⟨later, member, around⟩ := ih onward (Nat.le_of_not_lt here)
      exact ⟨later, List.mem_cons_of_mem _ member, around⟩

/-- A character between the two offsets of a span is the one the span covers there. -/
theorem getElem?_of_standsIn {text : String} {span : Span} (stands : span.StandsIn text)
    {offset : Nat} (behind : span.start.offset ≤ offset) (before : offset < span.stop.offset) :
    span.raw.toList[offset - span.start.offset]? = text.toList[offset]? := by
  rw [stands.raw_eq, List.getElem?_drop, Nat.add_sub_cancel' behind,
    List.getElem?_take_of_lt before]

/-- Broken markup never takes in a brace behind it. Literal text ends at the end of the text or
right in front of a brace. No token, be it literal text, an invalid tag or one that was read, holds
a brace except as its first character, or as its first two. So wherever a brace stands in a text, a
token starts there, or it is the second character of a token that starts with two braces. -/
theorem tokenize_recovers_at_braces (text : String) :
    (∀ token ∈ tokenize text,
      (token.kind = .raw → token.span.stop.offset = text.length ∨
        text.toList[token.span.stop.offset]? = some '\x7b') ∧
      BracesInFront token.span.raw.toList) ∧
    ∀ offset, text.toList[offset]? = some '\x7b' → ∃ token ∈ tokenize text,
      token.span.start.offset = offset ∨
        token.span.start.offset + 1 = offset ∧ ['\x7b', '\x7b'] <+: token.span.raw.toList := by
  have braces : ∀ token ∈ tokenize text, BracesInFront token.span.raw.toList := by
    intro token member
    obtain ⟨c, -, rfl⟩ := exists_cursor_of_mem_tokenize member
    obtain ⟨covered, split, front⟩ := Scan.bracesInFront_readToken c
    have covers := (Scan.readToken.onward c).since_raw
    rw [split, ← Scan.span_readToken] at covers
    rwa [← List.append_cancel_right covers]
  refine ⟨fun token member => ⟨fun raw => ?_, braces token member⟩, fun offset brace => ?_⟩
  · obtain ⟨c, reached, rfl⟩ := exists_cursor_of_mem_tokenize member
    have reached' := reached.trans (Scan.readToken.onward c)
    rw [Scan.stop_readToken]
    cases next : (Scan.readToken.run c).cursor.current? with
    | none =>
      have ended : (Scan.readToken.run c).cursor.rest = [] := List.head?_eq_none_iff.mp next
      have parts := reached'.offset_add_rest
      rw [ended, List.length_nil] at parts
      exact .inl parts
    | some first =>
      obtain rfl := Scan.readToken_endsAtBrace c raw first next
      rw [Cursor.current?, reached'.rest_eq_drop, List.head?_drop] at next
      exact .inr next
  · have inside : offset < text.length := by
      rw [← String.length_toList]
      exact (List.getElem?_eq_some_iff.mp brace).1
    obtain ⟨reading, member, behind, before⟩ :=
      exists_reading_over (Cursor.Onward.refl (.ofText text)) (Nat.zero_le offset) inside
    have token : reading.value ∈ tokenize text := List.mem_map_of_mem member
    have stands : reading.value.span.StandsIn text :=
      standsIn_of_mem_tokenize token _ List.mem_cons_self
    have covered := (getElem?_of_standsIn stands behind before).trans brace
    refine ⟨reading.value, token, ?_⟩
    rcases (braces _ token).eq_zero_or_one covered with first | ⟨second, front⟩
    · exact .inl (by omega)
    · exact .inr ⟨by omega, front⟩

end TextTemplate.Markup
