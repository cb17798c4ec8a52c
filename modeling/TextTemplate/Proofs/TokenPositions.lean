import Mathlib.Data.List.Chain
import TextTemplate.Proofs.Tiling

/-!
# Where the tokens of a text stand

Reading walks through a text from its start to its end. Every token starts where the one before it
stopped, and its span says where it stands: between its two offsets the text holds what the token
covers, and the lines and columns on both sides are those counted from the start of the text.
-/

namespace TextTemplate.Text

/-- From the start of a text, lines and columns count from one: the line grows with every newline,
and the column with every character behind the last of them. -/
theorem Pos.start_after (passed : List Char) :
    Pos.start.after passed =
      ⟨passed.length, 1 + passed.count '\n', 1 + lastLineLength passed⟩ := by
  have column : (if '\n' ∈ passed then lastLineLength passed + 1 else 1 + passed.length) =
      1 + lastLineLength passed := by
    by_cases newline : '\n' ∈ passed
    · rw [if_pos newline]
      omega
    · have reversed : '\n' ∉ passed.reverse := by simpa using newline
      have whole : lastLineLength passed = passed.length := by
        rw [lastLineLength, (length_takeWhile_newline passed.reverse).mpr reversed,
          List.length_reverse]
      rw [if_neg newline, whole]
  simp only [after, start, Nat.zero_add, column]

/-- The place in a text with `offset` characters in front of it. -/
def placeAt (text : String) (offset : Nat) : Pos := Pos.start.after (text.toList.take offset)

/-- The span stands in the text as it says: both of its places are those of their offsets, and it
covers the characters in between. -/
structure Span.StandsIn (text : String) (span : Span) : Prop where
  /-- The place in front does not lie behind the other one. -/
  ordered : span.start.offset ≤ span.stop.offset
  /-- The place behind does not lie behind the text. -/
  within : span.stop.offset ≤ text.length
  /-- The place in front has the line and the column of its offset. -/
  start_eq : span.start = placeAt text span.start.offset
  /-- The place behind has the line and the column of its offset. -/
  stop_eq : span.stop = placeAt text span.stop.offset
  /-- The span covers what is between the two offsets. -/
  raw_eq : span.raw.toList = (text.toList.take span.stop.offset).drop span.start.offset

/-- The place behind a span is the one reached from the place in front by reading what it covers. -/
theorem Span.StandsIn.stop_eq_after {text : String} {span : Span} (stands : span.StandsIn text) :
    span.stop = span.start.after span.raw.toList := by
  have split : text.toList.take span.stop.offset =
      text.toList.take span.start.offset ++ span.raw.toList := by
    have front : (text.toList.take span.stop.offset).take span.start.offset =
        text.toList.take span.start.offset := by
      rw [List.take_take, Nat.min_eq_left stands.ordered]
    rw [stands.raw_eq, ← front, List.take_append_drop]
  calc span.stop
    _ = Pos.start.after (text.toList.take span.stop.offset) := stands.stop_eq
    _ = (Pos.start.after (text.toList.take span.start.offset)).after span.raw.toList := by
      rw [split, Pos.after_append]
    _ = (placeAt text span.start.offset).after span.raw.toList := rfl
    _ = span.start.after span.raw.toList := by rw [← stands.start_eq]

namespace Cursor

variable {text : String} {c d : Cursor}

/-- On the way through a text, what was read and what is left make up the text. -/
theorem Onward.text_eq (reached : (ofText text).Onward c) :
    text.toList = c.before.reverse ++ c.rest := by
  obtain ⟨passed, rest, before⟩ := reached
  have read : c.before.reverse = passed := by
    rw [before]
    simp [ofText]
  rw [read]
  exact rest

/-- On the way through a text, the characters in front of the cursor are as many as its offset
says. -/
theorem Onward.take_eq (reached : (ofText text).Onward c) :
    text.toList.take c.pos.offset = c.before.reverse := by
  have length : c.pos.offset = c.before.reverse.length := by rw [pos_offset, List.length_reverse]
  rw [reached.text_eq, length, List.take_left]

/-- On the way through a text, what is left lies behind the offset of the cursor. -/
theorem Onward.rest_eq_drop (reached : (ofText text).Onward c) :
    c.rest = text.toList.drop c.pos.offset := by
  have length : c.pos.offset = c.before.reverse.length := by rw [pos_offset, List.length_reverse]
  rw [reached.text_eq, length, List.drop_left]

/-- On the way through a text, the cursor is at the place of its offset. -/
theorem Onward.pos_eq_placeAt (reached : (ofText text).Onward c) :
    c.pos = placeAt text c.pos.offset := by
  rw [placeAt, reached.take_eq]
  exact c.pos_eq

/-- Moving forward, the offset does not decrease. -/
theorem Onward.offset_le (onward : c.Onward d) : c.pos.offset ≤ d.pos.offset := by
  obtain ⟨passed, -, before⟩ := onward
  rw [pos_offset, pos_offset, before, List.length_append]
  omega

/-- On the way through a text, the offset and the number of characters left make up its length. -/
theorem Onward.offset_add_rest (reached : (ofText text).Onward c) :
    c.pos.offset + c.rest.length = text.length := by
  rw [pos_offset, ← String.length_toList, reached.text_eq, List.length_append, List.length_reverse]

/-- On the way through a text, the span between two cursors stands in it as it says. -/
theorem Onward.standsIn (reached : (ofText text).Onward c) (onward : c.Onward d) :
    (d.since c.pos).StandsIn text := by
  have reached' := reached.trans onward
  have ordered : c.pos.offset ≤ d.pos.offset := onward.offset_le
  have front : text.toList.take d.pos.offset = d.before.reverse := reached'.take_eq
  have length : (text.toList.take d.pos.offset).length = d.pos.offset := by
    rw [front, List.length_reverse, pos_offset]
  have within : d.pos.offset ≤ text.length := by
    have parts := reached'.offset_add_rest
    omega
  have covers : (d.since c.pos).raw.toList ++ d.rest =
      (text.toList.take d.pos.offset).drop c.pos.offset ++ d.rest := by
    have inside : c.pos.offset ≤ (text.toList.take d.pos.offset).length := by rwa [length]
    rw [← onward.since_raw, reached.rest_eq_drop, reached'.rest_eq_drop,
      ← List.drop_append_of_le_length inside, List.take_append_drop]
  exact ⟨ordered, within, reached.pos_eq_placeAt, reached'.pos_eq_placeAt,
    List.append_cancel_right covers⟩

end Cursor

end TextTemplate.Text

namespace TextTemplate.Markup

open Text

namespace Scan

/-- A token covers what lies between the cursors in front of it and behind it. -/
theorem span_readToken (c : Cursor) :
    (readToken.run c).value.span = (readToken.run c).cursor.since c.pos := by
  by_cases ended : c.rest = []
  · have read := readToken_at_end ended
    rw [read.1, read.2]
  · exact (readToken_readFrom ended).span_eq

/-- A token starts at the cursor in front of it. -/
theorem start_readToken (c : Cursor) : (readToken.run c).value.span.start = c.pos := by
  rw [span_readToken]
  rfl

/-- A token stops at the cursor behind it. -/
theorem stop_readToken (c : Cursor) :
    (readToken.run c).value.span.stop = (readToken.run c).cursor.pos := by
  rw [span_readToken]
  rfl

end Scan

/-- Every reading was made at a cursor on the way. -/
theorem exists_cursor_of_mem {c : Cursor} {reading : Reading Token}
    (member : reading ∈ readingsFrom c) :
    ∃ d, c.Onward d ∧ reading = Scan.readToken.run d := by
  fun_induction readingsFrom c with
  | case1 c first ended =>
    have same : reading = first := List.mem_singleton.mp member
    exact ⟨c, .refl c, same⟩
  | case2 c first more ih =>
    rcases List.mem_cons.mp member with same | later
    · exact ⟨c, .refl c, same⟩
    · obtain ⟨d, onward, made⟩ := ih later
      exact ⟨d, (Scan.readToken.onward c).trans onward, made⟩

/-- Every token of a text was read at a cursor on the way through it. -/
theorem exists_cursor_of_mem_tokenize {text : String} {token : Token}
    (member : token ∈ tokenize text) :
    ∃ c, (Cursor.ofText text).Onward c ∧ token = (Scan.readToken.run c).value := by
  obtain ⟨reading, inside, rfl⟩ := List.mem_map.mp member
  obtain ⟨c, reached, rfl⟩ := exists_cursor_of_mem inside
  exact ⟨c, reached, rfl⟩

/-- From a cursor on, the first token starts at the cursor, and every other one where the one
before it stopped. -/
theorem isChain_readingsFrom (c : Cursor) :
    ((readingsFrom c).map (·.value)).head?.map (·.span.start) = some c.pos ∧
      ((readingsFrom c).map (·.value)).IsChain
        fun token next => next.span.start = token.span.stop := by
  fun_induction readingsFrom c with
  | case1 c reading ended =>
    exact ⟨congrArg some (Scan.start_readToken c), List.isChain_singleton _⟩
  | case2 c reading more ih =>
    obtain ⟨first, chain⟩ := ih
    refine ⟨congrArg some (Scan.start_readToken c), ?_⟩
    rw [List.map_cons, List.isChain_cons]
    refine ⟨fun next following => ?_, chain⟩
    have follows : (some next).map (·.span.start) = some reading.cursor.pos := by
      rw [← first]
      exact congrArg _ following.symm
    rw [Scan.stop_readToken c]
    exact Option.some.inj follows

/-- The mark of the end of a text stands behind its last character. -/
theorem stop_of_endOfText {text : String} {stop : Pos}
    (member : ⟨.endOfText, .empty stop⟩ ∈ tokenize text) : stop = placeAt text text.length := by
  obtain ⟨c, reached, read⟩ := exists_cursor_of_mem_tokenize member
  have ended : c.rest = [] := (Scan.readToken_endOfText_iff c).mp (by rw [← read])
  have place : stop = c.pos := by
    have covers := Scan.span_readToken c
    rw [← read] at covers
    exact congrArg Span.start covers
  have offset : c.pos.offset = text.length := by
    simpa [ended] using reached.offset_add_rest
  rw [place, reached.pos_eq_placeAt, offset]

/-- The tokens of a text tile it without a gap. The end of the text is marked once, by the last
token, which covers nothing behind the last character; every other token covers something. The
first token starts in front of the text and every other one where the one before it stopped. Every
span stands in the text as it says, and literal texts and invalid tags repeat what they cover.
Places count characters from nought, and lines and columns from one. -/
theorem tokenize_tiles (text : String) :
    (∃ content, tokenize text = content ++ [⟨.endOfText, .empty (placeAt text text.length)⟩] ∧
      ∀ token ∈ content, token.lexeme ≠ .endOfText ∧ token.span.raw ≠ "") ∧
    (tokenize text).head?.map (·.span.start) = some ⟨0, 1, 1⟩ ∧
    (tokenize text).IsChain (fun token next => next.span.start = token.span.stop) ∧
    (∀ token ∈ tokenize text, token.span.StandsIn text ∧
      (∀ content, token.lexeme = .raw content → content = token.span.raw) ∧
      ∀ content, token.lexeme = .invalid content → content = token.span.raw) ∧
    ∀ offset ≤ text.length, placeAt text offset =
      ⟨offset, 1 + (text.toList.take offset).count '\n',
        1 + lastLineLength (text.toList.take offset)⟩ := by
  obtain ⟨first, chain⟩ := isChain_readingsFrom (.ofText text)
  obtain ⟨⟨stop, split⟩, proper, -⟩ := contentTokens_spec text
  have stands : ∀ token ∈ tokenize text, token.span.StandsIn text := by
    intro token member
    obtain ⟨c, reached, rfl⟩ := exists_cursor_of_mem_tokenize member
    rw [Scan.span_readToken]
    exact reached.standsIn (Scan.readToken.onward c)
  have last : stop = placeAt text text.length :=
    stop_of_endOfText (by simp [split])
  refine ⟨⟨contentTokens text, last ▸ split, fun token member => ?_⟩, first, chain,
    fun token member => ⟨stands token member, ?_⟩, fun offset inside => ?_⟩
  · exact ⟨(proper token member).not_end, (proper token member).covers⟩
  · rw [split] at member
    rcases List.mem_append.mp member with inside | ending
    · exact ⟨(proper token inside).raw_eq, (proper token inside).invalid_eq⟩
    · obtain rfl := List.mem_singleton.mp ending
      exact ⟨nofun, nofun⟩
  · have length : (text.toList.take offset).length = offset := by
      rw [List.length_take, String.length_toList]
      omega
    rw [placeAt, Pos.start_after, length]

end TextTemplate.Markup
