import TextTemplate.Proofs.Locality
import TextTemplate.Proofs.TagReading

/-!
# Canonical forms are read as they were

When all tokens of a text are written out in canonical form one after the other, reading takes the
result apart at the same places. A tag is read in its canonical form whatever follows; literal text
and invalid tags stay as they are, and what follows them starts with the same character as before.
-/

namespace TextTemplate.Markup

open Text

/-- Every way to write a tag starts with a brace. -/
theorem TagText.head?_eq {text : List Char} {lexeme : Lexeme} (written : TagText text lexeme) :
    text.head? = some '\x7b' := by
  cases written <;> rfl

/-- What is no tag, inside a text, is written as it stands there. -/
theorem Token.Proper.canonical_eq {token : Token} (proper : token.Proper)
    (other : token.lexeme.isTag = false) : token.canonical = token.span.raw := by
  obtain ⟨lexeme, span⟩ := token
  cases lexeme with
  | endOfText => exact absurd rfl proper.not_end
  | raw text => exact proper.raw_eq text rfl
  | invalid text => exact proper.invalid_eq text rfl
  | use _ | forStart _ _ | forEnd | ifStart _ | elifTag _ | elseTag | ifEnd => nomatch other

namespace Scan

/-- Before the end of the text, the canonical form of a token starts as the token does. -/
theorem head?_canonical {c : Cursor} (more : c.rest ≠ []) (back : List Char) :
    ((readToken.run c).value.canonical.toList ++ back).head? = c.rest.head? := by
  have proper := readToken_proper more
  cases tag : (readToken.run c).value.lexeme.isTag with
  | true =>
    obtain ⟨text, written, whole⟩ := readToken_sound (readToken.reads_run c) tag
    have first := written.canonical.head?_eq
    rw [whole, List.head?_append, List.head?_append, written.head?_eq, Token.canonical, first]
    rfl
  | false =>
    have covers : (readToken.run c).value.span.raw.toList ≠ [] := by
      simpa using proper.covers
    obtain ⟨first, covered, split⟩ := List.exists_cons_of_ne_nil covers
    rw [rest_eq_readToken more, proper.canonical_eq tag, split]
    rfl

/-- The canonical form of a token is read as that token, in front of a tail that starts with the
character that followed the token. -/
theorem readToken_canonical {c c' : Cursor} (more : c.rest ≠ []) {tail : List Char}
    (text : c'.rest = (readToken.run c).value.canonical.toList ++ tail)
    (next : (readToken.run c).cursor.rest.head? = tail.head?) :
    (readToken.run c').value.lexeme.bare = (readToken.run c).value.lexeme.bare ∧
      (readToken.run c').cursor.rest = tail := by
  cases tag : (readToken.run c).value.lexeme.isTag with
  | true =>
    obtain ⟨_, written, -⟩ := readToken_sound (readToken.reads_run c) tag
    obtain ⟨d, token, ⟨rfl, rfl⟩, same, rest⟩ := readToken_complete written.canonical text
    exact ⟨same, rest⟩
  | false =>
    rw [(readToken_proper more).canonical_eq tag] at text
    exact readToken_in_front more text next

end Scan

/-- All tokens from a cursor on, written out in canonical form. -/
def canonicalFrom (c : Cursor) : List Char :=
  (readingsFrom c).flatMap (·.value.canonical.toList)

/-- At the end of the text there is nothing to write out. -/
theorem canonicalFrom_at_end {c : Cursor} (ended : c.rest = []) : canonicalFrom c = [] := by
  rw [canonicalFrom, readingsFrom, if_pos ended, List.flatMap_singleton,
    (Scan.readToken_at_end ended).1]
  rfl

/-- Before the end of the text, the next token is written out and then what follows it. -/
theorem canonicalFrom_of_more {c : Cursor} (more : c.rest ≠ []) :
    canonicalFrom c = (Scan.readToken.run c).value.canonical.toList ++
      canonicalFrom (Scan.readToken.run c).cursor := by
  rw [canonicalFrom, readingsFrom, if_neg more, List.flatMap_cons]
  rfl

/-- What is written out starts as the text does. -/
theorem head?_canonicalFrom (c : Cursor) : (canonicalFrom c).head? = c.rest.head? := by
  by_cases ended : c.rest = []
  · rw [canonicalFrom_at_end ended, ended]
  · rw [canonicalFrom_of_more ended, Scan.head?_canonical ended]

/-- What is written out in canonical form is read again token by token. -/
theorem readingsFrom_canonicalFrom (c c' : Cursor) (text : c'.rest = canonicalFrom c) :
    (readingsFrom c').map (·.value.lexeme.bare) = (readingsFrom c).map (·.value.lexeme.bare) := by
  fun_induction readingsFrom c generalizing c' with
  | case1 c reading ended =>
    rw [canonicalFrom_at_end ended] at text
    rw [readingsFrom_of_end text]
    simp [reading, (Scan.readToken_at_end ended).1, (Scan.readToken_at_end text).1]
  | case2 c reading more ih =>
    have first := head?_canonicalFrom c
    rw [← text] at first
    have more' : c'.rest ≠ [] := by
      rw [ne_eq, ← List.head?_eq_none_iff, first, List.head?_eq_none_iff]
      exact more
    rw [canonicalFrom_of_more more] at text
    obtain ⟨same, rest⟩ :=
      Scan.readToken_canonical more text (head?_canonicalFrom reading.cursor).symm
    rw [readingsFrom_of_more more', List.map_cons, List.map_cons, same, ih _ rest]

end TextTemplate.Markup
