import TextTemplate.Proofs.MovedTrees
import TextTemplate.Proofs.ReachableTrees
import TextTemplate.Proofs.Rescanning
import TextTemplate.Template

/-!
# The canonical form of a text

Written out with nothing known, a text becomes its tokens in canonical form one after the other. It
says the same as before, token by token, so its tree has the same shape, and writing it out once
more changes nothing.
-/

namespace TextTemplate

open Data Evaluation Expression Markup

namespace Expression

/-- Under the empty context a parsed text is written out as its tokens in canonical form. -/
theorem render_empty_parse (limit : Int) (text : String) :
    (parse limit text).render .empty = (parse limit text).canonical := by
  have branched := Node.inherited_branched.parse limit text
  have undecided := branched.undecided fun path _ => Context.resolve?_empty path
  exact Node.render_of_undecided undecided

/-- What is not genuine is written out as nothing. -/
theorem canonical_of_not_genuine {token : Token} (other : token.genuine = false) :
    token.canonical = "" := by
  obtain ⟨lexeme, span⟩ := token
  simp only [Token.genuine, Bool.and_eq_false_iff, bne_eq_false_iff_eq] at other
  rcases other with rfl | rfl <;> rfl

/-- Tokens that are not genuine may be left out when tokens are written out. -/
theorem join_canonical_genuine (tokens : List Token) :
    String.join ((tokens.filter Token.genuine).map Token.canonical) =
      .join (tokens.map Token.canonical) := by
  induction tokens with
  | nil => rfl
  | cons token more ih =>
    cases genuine : token.genuine with
    | true => rw [List.filter_cons_of_pos genuine, List.map_cons, List.map_cons, String.join_cons,
        String.join_cons, ih]
    | false =>
      have dropped : ¬token.genuine = true := by simp [genuine]
      rw [List.filter_cons_of_neg dropped, ih, List.map_cons, String.join_cons,
        canonical_of_not_genuine genuine, String.empty_append]

end Expression

/-- Written out, a text becomes its tokens in canonical form. -/
theorem writtenOut_eq_join (limit : Int) (text : String) :
    writtenOut limit text = .join ((tokenize text).map Token.canonical) := by
  obtain ⟨⟨stop, split⟩, -, -⟩ := contentTokens_spec text
  have ending : Token.canonical ⟨.endOfText, .empty stop⟩ = "" := rfl
  rw [writtenOut, renderText, render_empty_parse, Node.canonical, ← join_canonical_genuine,
    genuine_parse, split, List.map_append, String.join_append, List.map_singleton, ending]
  simp

/-- The canonical form of a text says what the text says, token by token. -/
theorem tokenize_writtenOut (limit : Int) (text : String) :
    (tokenize (writtenOut limit text)).map (·.lexeme.bare) =
      (tokenize text).map (·.lexeme.bare) := by
  have whole : (Text.Cursor.ofText (writtenOut limit text)).rest =
      canonicalFrom (.ofText text) := by
    rw [Text.Cursor.ofText, writtenOut_eq_join, String.toList_join, canonicalFrom, tokenize,
      readings, List.map_map, List.flatMap_map]
    rfl
  have read := readingsFrom_canonicalFrom _ _ whole
  rw [tokenize, tokenize, List.map_map, List.map_map]
  exact read

/-- Tokens that say the same are written out alike. -/
theorem map_canonical_eq {tokens tokens' : List Token}
    (same : tokens.map (·.lexeme.bare) = tokens'.map (·.lexeme.bare)) :
    tokens.map Token.canonical = tokens'.map Token.canonical := by
  have written (tokens : List Token) : tokens.map Token.canonical =
      (tokens.map (·.lexeme.bare)).map Lexeme.canonical := by
    rw [List.map_map]
    exact List.map_congr_left fun token _ => (Lexeme.canonical_bare token.lexeme).symm
  rw [written, written, same]

/-- Writing a text out with nothing known brings it to canonical form. The result is the tokens of
the text in canonical form; it is taken apart into as many tokens that say the same, one by one; its
tree has the same shape; and writing it out again changes nothing. -/
theorem writtenOut_canonical (limit : Int) (text : String) :
    writtenOut limit text = .join ((tokenize text).map Token.canonical) ∧
    (tokenize (writtenOut limit text)).map (·.lexeme.bare) =
      (tokenize text).map (·.lexeme.bare) ∧
    (parse limit (writtenOut limit text)).shape = (parse limit text).shape ∧
    writtenOut limit (writtenOut limit text) = writtenOut limit text := by
  have same := tokenize_writtenOut limit text
  have nonempty : tokenize (writtenOut limit text) ≠ [] := by
    simpa [tokenize, readings] using readingsFrom_ne_nil _
  refine ⟨writtenOut_eq_join limit text, same, shape_ofTokens limit same nonempty, ?_⟩
  rw [writtenOut_eq_join limit (writtenOut limit text), map_canonical_eq same,
    ← writtenOut_eq_join]

end TextTemplate
