import TextTemplate.Proofs.InnerBraces
import TextTemplate.Proofs.TagRecognition

/-!
# Texts that may be joined

Behind a text another one may stand. The tokens of the first text stay as they are when the boundary
is clean: its last token is a tag, or the second text starts with an opening brace that the last
token of the first one does not take in. All that could take it in is a brace that is left alone.
-/

namespace TextTemplate.Markup

open Text

/-- The boundary between a text and the one that stands behind it cuts no token. -/
inductive CleanBoundary (text more : String) : Prop
  /-- Nothing stands behind. -/
  | nothingBehind (empty : more = "")
  /-- Nothing stands in front. -/
  | nothingInFront (empty : text = "")
  /-- The text ends with a tag. -/
  | behindTag {last : Token} (ends : (contentTokens text).getLast? = some last)
      (tag : last.kind ∈ TokenKind.tags)
  /-- A brace stands behind, and the text does not end with a brace left alone. -/
  | beforeBrace {last : Token} (ends : (contentTokens text).getLast? = some last)
      (whole : last.lexeme ≠ .raw "\x7b") (brace : more.toList.head? = some '\x7b')

/-- A text that starts with `tail` may stand behind the token: no character of it is taken in. -/
def Token.EndsBefore (tail : List Char) (token : Token) : Prop :=
  tail = [] ∨ token.kind ∈ TokenKind.tags ∨
    token.lexeme ≠ .raw "\x7b" ∧ tail.head? = some '\x7b'

/-- At a clean boundary, what stands behind may stand behind the last token. -/
theorem CleanBoundary.endsBefore {text more : String} (clean : CleanBoundary text more) :
    ∀ last ∈ (contentTokens text).getLast?, last.EndsBefore more.toList := by
  intro last member
  cases clean with
  | nothingBehind empty => exact .inl (by rw [empty, String.toList_empty])
  | nothingInFront empty =>
    have nothing : contentTokens "" = [] := by decide +kernel
    rw [empty, nothing] at member
    contradiction
  | @behindTag last' ends tag =>
    have same : last' = last := Option.some.inj (ends.symm.trans member)
    exact .inr (.inl (same ▸ tag))
  | @beforeBrace last' ends whole brace =>
    have same : last' = last := Option.some.inj (ends.symm.trans member)
    exact .inr (.inr ⟨same ▸ whole, brace⟩)

namespace Scan

variable {c c' : Cursor} {tail : List Char}

/-- A token ends at the same place wherever the same text is ahead. -/
theorem rest_of_alike (alike : c'.rest = c.rest) :
    (readToken.run c').cursor.rest = (readToken.run c).cursor.rest := by
  have ahead : c.rest = c.rest ++ [] := (List.append_nil _).symm
  obtain ⟨-, left, stop, stop'⟩ :=
    readToken_beside rfl ahead (alike.trans ahead) List.nil_suffix
  exact stop'.trans stop.symm

/-- A token that ends inside of a text ends there still when another text stands behind. -/
theorem rest_of_inside (ahead : c'.rest = c.rest ++ tail)
    (inside : (readToken.run c).cursor.rest ≠ []) :
    (readToken.run c').cursor.rest = (readToken.run c).cursor.rest ++ tail := by
  have more : c.rest ≠ [] := fun ended => inside (by rw [(readToken_at_end ended).2, ended])
  have split : c'.rest = (readToken.run c).value.span.raw.toList ++
      ((readToken.run c).cursor.rest ++ tail) := by
    rw [ahead, ← List.append_assoc, ← rest_eq_readToken more]
  have next : (readToken.run c).cursor.rest.head? =
      ((readToken.run c).cursor.rest ++ tail).head? :=
    (List.head?_append_of_ne_nil _ inside).symm
  exact (readToken_in_front more split next).2

/-- A token that reaches to the end of a text reaches as far when another text stands behind. -/
theorem rest_suffix_of_reaching (ahead : c'.rest = c.rest ++ tail)
    (reaches : (readToken.run c).cursor.rest = []) : (readToken.run c').cursor.rest <:+ tail := by
  obtain ⟨stretch, split, -⟩ := readToken.onward c'
  have behind : tail <:+ c'.rest := ⟨c.rest, ahead.symm⟩
  have stop : (readToken.run c').cursor.rest <:+ c'.rest := (readToken.onward c').suffix
  rcases List.suffix_or_suffix_of_suffix stop behind with further | ⟨left, early⟩
  · exact further
  · -- Whatever is left in front of the boundary would be left without the text behind, too.
    have whole : c.rest = stretch ++ left := by
      rw [ahead, ← early, ← List.append_assoc] at split
      exact List.append_cancel_right split
    have nothing : left = [] := by
      by_contra something
      have next : (left ++ tail).head? = left.head? := List.head?_append_of_ne_nil _ something
      rw [← early] at split
      obtain ⟨-, more, -, rest⟩ := readToken_beside next split whole ⟨[], early⟩
      rw [reaches] at rest
      exact something (List.append_eq_nil_iff.mp rest.symm).2
    rw [← early, nothing]
    exact List.suffix_refl tail

/-- A token that reaches to the end of a text ends there still when a text with a brace at its
front stands behind, unless all that the token covers is a brace. -/
theorem rest_of_reaching (more : c.rest ≠ []) (ahead : c'.rest = c.rest ++ tail)
    (reaches : (readToken.run c).cursor.rest = []) (whole : c.rest ≠ ['\x7b'])
    (brace : tail.head? = some '\x7b') : (readToken.run c').cursor.rest = tail := by
  obtain ⟨back, taken⟩ := rest_suffix_of_reaching ahead reaches
  obtain ⟨covered, split, braces⟩ := bracesInFront_readToken c'
  have covers : covered = c.rest ++ back := by
    rw [ahead, ← taken, ← List.append_assoc] at split
    exact (List.append_cancel_right split).symm
  cases back with
  | nil => exact taken
  | cons first back =>
    have first_eq : first = '\x7b' := by
      rw [← taken] at brace
      exact Option.some.inj brace
    rw [covers, first_eq] at braces
    exact absurd (braces.eq_brace more) whole

/-- Where a brace is left alone, it is read as literal text. -/
theorem lexeme_of_brace (alone : c.rest = ['\x7b']) :
    (readToken.run c).value.lexeme = .raw "\x7b" := by
  have ahead : (Cursor.ofText "\x7b").rest = c.rest ++ [] := by rw [alone]; rfl
  have ahead' : c.rest = c.rest ++ [] := (List.append_nil _).symm
  have same := (readToken_beside rfl ahead ahead' List.nil_suffix).1
  have literal : (readToken.run (.ofText "\x7b")).value.lexeme = .raw "\x7b" := by decide +kernel
  rw [literal] at same
  cases lexeme : (readToken.run c).value.lexeme with
  | raw text => rwa [lexeme] at same
  | endOfText | invalid _ | use _ | forStart _ _ | forEnd | ifStart _ | elifTag _ | elseTag
  | ifEnd =>
    rw [lexeme] at same
    nomatch same

/-- A token in front of a clean boundary ends at the same place, whatever stands behind. -/
theorem rest_of_clean (more : c.rest ≠ []) (ahead : c'.rest = c.rest ++ tail)
    (clean : (readToken.run c).cursor.rest = [] → (readToken.run c).value.EndsBefore tail) :
    (readToken.run c').cursor.rest = (readToken.run c).cursor.rest ++ tail := by
  by_cases reaches : (readToken.run c).cursor.rest = []
  · rcases clean reaches with nothing | tag | ⟨whole, brace⟩
    · rw [nothing, List.append_nil] at ahead ⊢
      exact rest_of_alike ahead
    · have isTag := (isTag_iff_kind_mem_tags _).mpr tag
      obtain ⟨text, written, covers⟩ := readToken_sound (readToken.reads_run c) isTag
      rw [covers, List.append_assoc] at ahead
      obtain ⟨d, token, ⟨rfl, rfl⟩, -, rest⟩ := readToken_complete written ahead
      exact rest
    · rw [reaches, List.nil_append]
      exact rest_of_reaching more ahead reaches (fun alone => whole (lexeme_of_brace alone)) brace
  · exact rest_of_inside ahead reaches

end Scan

namespace Transplant

variable {t : Transplant}

/-- Where nothing stands behind a stretch on the one side, the text ahead is the same on the other
side but for what stands behind it there. -/
theorem Beside.rest_eq {c c' : Cursor} (beside : t.Beside c c') (ends : t.tail = []) :
    c'.rest = c.rest ++ t.tail' := by
  obtain ⟨-, ahead, -, -, rest, rest'⟩ := beside
  rw [rest, rest', ends, List.append_nil]

/-- Where nothing stands behind a stretch on both sides, all tokens ahead are the same. -/
theorem readingsFrom_moved (c c' : Cursor) (beside : t.Beside c c') (ends : t.tail = [])
    (ends' : t.tail' = []) : (readingsFrom c').map (·.value) =
      ((readingsFrom c).map (·.value)).map (Token.mapSpans t.span) := by
  have heads : t.tail.head? = t.tail'.head? := by rw [ends, ends']
  fun_induction readingsFrom c generalizing c' with
  | case1 c reading ended =>
    obtain ⟨-, value⟩ := Keeps.readToken c c' beside (ends ▸ List.nil_suffix) (.inl heads)
    have ended' : c'.rest = [] := by rw [beside.rest_eq ends, ended, ends', List.append_nil]
    simp only [readingsFrom_of_end ended', List.map_cons, List.map_nil, value, reading]
  | case2 c reading more ih =>
    obtain ⟨beside₁, value⟩ := Keeps.readToken c c' beside (ends ▸ List.nil_suffix) (.inl heads)
    have more' : c'.rest ≠ [] := by simp [beside.rest_eq ends, more]
    simp only [readingsFrom_of_more more', List.map_cons, ih _ beside₁, value, reading]

/-- Where nothing stands behind a stretch on the one side, and on the other side something at a
clean boundary, all tokens of the stretch are the same, and the others are read from the boundary
on. -/
theorem readingsFrom_joined (c c' : Cursor) (beside : t.Beside c c') (ends : t.tail = [])
    (clean : ∀ last ∈ ((readingsFrom c).map (·.value)).dropLast.getLast?,
      last.EndsBefore t.tail') :
    ∃ d', c'.Onward d' ∧ d'.rest = t.tail' ∧ (readingsFrom c').map (·.value) =
      ((readingsFrom c).map (·.value)).dropLast.map (Token.mapSpans t.span) ++
        (readingsFrom d').map (·.value) := by
  fun_induction readingsFrom c generalizing c' with
  | case1 c reading ended =>
    have boundary : c'.rest = t.tail' := by rw [beside.rest_eq ends, ended, List.nil_append]
    exact ⟨c', .refl c', boundary, rfl⟩
  | case2 c reading more ih =>
    have others : (readingsFrom reading.cursor).map (·.value) ≠ [] := by
      simp [readingsFrom_ne_nil]
    rw [List.map_cons, List.dropLast_cons_of_ne_nil others] at clean
    have last : reading.cursor.rest = [] → reading.value.EndsBefore t.tail' := by
      intro reaches
      rw [readingsFrom_of_end reaches] at clean
      exact clean reading.value rfl
    have ahead := beside.rest_eq ends
    have stop := Scan.rest_of_clean more ahead last
    obtain ⟨beside₁, value⟩ := Keeps.readToken c c' beside (ends ▸ List.nil_suffix)
      (.inr ⟨_, stop.symm⟩)
    obtain ⟨d', onward, rest, tokens⟩ :=
      ih _ beside₁ fun last member => clean last (List.mem_getLast?_cons member)
    have more' : c'.rest ≠ [] := by simp [ahead, more]
    refine ⟨d', (Scan.readToken.onward c').trans onward, rest, ?_⟩
    rw [readingsFrom_of_more more', List.map_cons, List.map_cons, tokens, value,
      List.dropLast_cons_of_ne_nil others, List.map_cons, List.cons_append]

end Transplant

/-- Across a clean boundary, the tokens of a text are those of its two parts, the end of the first
part left out and the spans of both changed: those of the first part are counted from the start
again, and those of the second part from behind the first one. -/
theorem tokenize_joined {text more : String} (clean : CleanBoundary text more) :
    tokenize (text ++ more) =
      (contentTokens text).map (Token.mapSpans (.mapPlaces (.rebased .start .start))) ++
        (tokenize more).map
          (Token.mapSpans (.mapPlaces (.rebased .start (Pos.start.after text.toList)))) := by
  have whole : (Cursor.ofText (text ++ more)).rest = text.toList ++ more.toList :=
    String.toList_append
  have front : Transplant.Beside ⟨.ofText text, .ofText (text ++ more), [], more.toList⟩
      (.ofText text) (.ofText (text ++ more)) :=
    ⟨[], text.toList, rfl, rfl, (List.append_nil _).symm, whole⟩
  obtain ⟨d, onward, rest, tokens⟩ := Transplant.readingsFrom_joined _ _ front rfl clean.endsBefore
  obtain ⟨passed, split, before⟩ := onward
  have passed_eq : passed = text.toList := by
    rw [whole, rest] at split
    exact (List.append_cancel_right split).symm
  have behind : Transplant.Beside ⟨.ofText more, d, [], []⟩ (.ofText more) d :=
    ⟨[], more.toList, rfl, rfl, (List.append_nil _).symm, rest.trans (List.append_nil _).symm⟩
  have others := Transplant.readingsFrom_moved _ _ behind rfl rfl
  have place : d.pos = Pos.start.after text.toList := passed_eq ▸ Cursor.pos_eq_after before
  calc tokenize (text ++ more)
    _ = _ := tokens
    _ = _ := by
      rw [others, ← place]
      rfl

/-- Across a clean boundary, the tokens of a text say what those of its two parts say, the end of
the first part left out. -/
theorem bare_tokenize_append {text more : String} (clean : CleanBoundary text more) :
    (tokenize (text ++ more)).map (·.lexeme.bare) =
      (contentTokens text ++ tokenize more).map (·.lexeme.bare) := by
  have bare (f : Span → Span) (token : Token) :
      (token.mapSpans f).lexeme.bare = token.lexeme.bare := Lexeme.bare_mapSpans f _
  rw [tokenize_joined clean]
  simp only [List.map_append, List.map_map, Function.comp_def, bare]

end TextTemplate.Markup
