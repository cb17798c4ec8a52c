import TextTemplate.Proofs.CleanBoundary
import TextTemplate.Proofs.SoundReading

/-!
# The tokens of joined texts

Across a boundary that cuts no token, a text is taken apart like its two parts, one after the other.
The tokens of the first part stay where they are. Those of the second part are moved as if the first
part stood in front of it, with every place in them: those of a token itself, and those of the paths
and names in it.
-/

namespace TextTemplate.Text

/-- Where a place of `more` is when `text` stands in front. -/
def placeBehind (text more : String) (pos : Pos) : Pos :=
  Pos.start.after (text.toList ++ more.toList.take pos.offset)

/-- Counted from the start of a text again, a span of the text stays where it is. -/
theorem Span.StandsIn.rebased_start {text : String} {span : Span} (stands : span.StandsIn text) :
    span.mapPlaces (.rebased .start .start) = span := by
  have same (offset : Nat) :
      Pos.rebased .start .start (placeAt text offset) = placeAt text offset :=
    Pos.rebased_after .start .start _
  have start := same span.start.offset
  have stop := same span.stop.offset
  rw [← stands.start_eq] at start
  rw [← stands.stop_eq] at stop
  rw [mapPlaces, start, stop]

/-- Counted from behind another text, a span of a text is moved as if the other one stood in
front. -/
theorem Span.StandsIn.rebased_behind {more : String} {span : Span} (stands : span.StandsIn more)
    (text : String) : span.mapPlaces (.rebased .start (Pos.start.after text.toList)) =
      span.mapPlaces (placeBehind text more) := by
  have moved (offset : Nat) :
      Pos.rebased .start (Pos.start.after text.toList) (placeAt more offset) =
        Pos.start.after (text.toList ++ more.toList.take offset) := by
    rw [placeAt, Pos.rebased_after, Pos.after_append]
  have start := moved span.start.offset
  have stop := moved span.stop.offset
  rw [← stands.start_eq] at start
  rw [← stands.stop_eq] at stop
  rw [mapPlaces, mapPlaces, start, stop, placeBehind, placeBehind]

end TextTemplate.Text

namespace TextTemplate.Markup

open Text

/-- Changing the spans of a token hangs on what happens to those that it has. -/
theorem Token.mapSpans_congr {f g : Span → Span} {token : Token}
    (same : ∀ span ∈ token.spans, f span = g span) : token.mapSpans f = token.mapSpans g := by
  obtain ⟨lexeme, span⟩ := token
  rw [spans, List.forall_mem_cons] at same
  obtain ⟨whole, names⟩ := same
  have inside : lexeme.mapSpans f = lexeme.mapSpans g := by
    cases lexeme with
    | use path | ifStart path | elifTag path =>
      have there : f path.span = g path.span := names _ List.mem_cons_self
      simp only [Lexeme.mapSpans, Path.mapSpan, there]
    | forStart var path =>
      have bound : f var.span = g var.span := names _ List.mem_cons_self
      have there : f path.span = g path.span :=
        names _ (List.mem_cons_of_mem _ List.mem_cons_self)
      simp only [Lexeme.mapSpans, Ident.mapSpan, Path.mapSpan, bound, there]
    | endOfText | raw _ | invalid _ | forEnd | elseTag | ifEnd => rfl
  rw [mapSpans, mapSpans, inside, whole]

/-- Where no span is changed, a token stays the same. -/
theorem Token.mapSpans_id (token : Token) : token.mapSpans id = token := by
  obtain ⟨lexeme, span⟩ := token
  cases lexeme <;> rfl

/-- Where the boundary between two texts cuts no token, the joined text has the tokens of the first
one without the mark of its end, followed by those of the second one. Every place in the latter, of
a token, a path or a name, is moved as if the first text stood in front. -/
theorem tokenize_append {text more : String} (clean : CleanBoundary text more) :
    tokenize (text ++ more) = contentTokens text ++
      (tokenize more).map (Token.mapSpans (.mapPlaces (placeBehind text more))) := by
  have front : ∀ token ∈ contentTokens text,
      token.mapSpans (.mapPlaces (.rebased .start .start)) = token := by
    intro token member
    have stand := standsIn_of_mem_tokenize ((List.dropLast_sublist _).subset member)
    calc token.mapSpans (.mapPlaces (.rebased .start .start))
      _ = token.mapSpans id :=
        Token.mapSpans_congr fun span inside => (stand span inside).rebased_start
      _ = token := token.mapSpans_id
  have behind : ∀ token ∈ tokenize more,
      token.mapSpans (.mapPlaces (.rebased .start (Pos.start.after text.toList))) =
        token.mapSpans (.mapPlaces (placeBehind text more)) := fun token member =>
    Token.mapSpans_congr fun span inside =>
      (standsIn_of_mem_tokenize member span inside).rebased_behind text
  rw [tokenize_joined clean, List.map_congr_left front, List.map_id', List.map_congr_left behind]

/-- The first text ends in its second line with a loop head that has no end and stays unfinished.
The second one starts with a brace, and there is a newline inside of its tag. -/
theorem tokenize_append_unfinished_loop_head :
    let text := "a\n\x7b% for x in "
    let more := "\x7b% for y in\nys.zs %\x7d\n"
    CleanBoundary text more ∧ tokenize (text ++ more) = contentTokens text ++
      (tokenize more).map (Token.mapSpans (.mapPlaces (placeBehind text more))) := by
  intro text more
  have ends : (contentTokens text).getLast? =
      some ⟨.invalid "\x7b% for x in ", ⟨"\x7b% for x in ", ⟨2, 2, 1⟩, ⟨14, 2, 13⟩⟩⟩ := by
    decide +kernel
  have clean : CleanBoundary text more := .beforeBrace ends (by decide) (by decide +kernel)
  exact ⟨clean, tokenize_append clean⟩

/-- A brace left alone takes in the brace behind it. -/
example : tokenize ("\x7b" ++ "\x7b x \x7d\x7d") ≠ contentTokens "\x7b" ++
    (tokenize "\x7b x \x7d\x7d").map
      (Token.mapSpans (.mapPlaces (placeBehind "\x7b" "\x7b x \x7d\x7d"))) := by
  decide +kernel

end TextTemplate.Markup
