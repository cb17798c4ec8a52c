import TextTemplate.Proofs.SourceTokens
import TextTemplate.Proofs.Subnodes
import TextTemplate.Template

/-!
# Expressions of which a context decides nothing

Where a context knows no text for any place of a value, no items for any loop and no first
condition of any conditional, evaluation only copies: the expression is written out as its tokens in
canonical form, and it is left as it is. This is said of one context for the whole expression, so it
covers the bodies of loops as they are read while the loop is undecided.
-/

namespace TextTemplate.Expression.Node

open Data Evaluation Markup Text

/-- The tokens of an expression from left to right, each in canonical form. -/
def canonical (node : Node) : String := .join (node.tokens.map Token.canonical)

/-- The branches of a conditional in canonical form; only the first one is opened by an if tag. -/
def branchesCanonical (first : Bool) (branches : List (Branch Node)) : String :=
  .join ((branchTokens first branches).map Token.canonical)

/-- A loop is written with its body between its two tags. -/
theorem canonical_loop (var : Ident) (path : Path) (opening closing : Span) (body : Node) :
    (loop var path opening closing body).canonical =
      (Lexeme.forStart var path).canonical ++ body.canonical ++ Lexeme.forEnd.canonical := by
  simp [canonical, tokens, Token.canonical, String.join_cons, String.join_append,
    String.append_assoc]

/-- A conditional is written with its branches, its alternative and its last tag. -/
theorem canonical_choice (branches : List (Branch Node)) (otherwise : Option (Alternative Node))
    (closing : Span) :
    (choice branches otherwise closing).canonical =
      branchesCanonical true branches ++
        .join ((alternativeTokens otherwise).map Token.canonical) ++ Lexeme.ifEnd.canonical := by
  simp [canonical, branchesCanonical, tokens, Token.canonical, String.join_append,
    String.append_assoc]

/-- Branches are written one after the other, each behind its tag. -/
theorem branchesCanonical_cons (first : Bool) (branch : Branch Node) (more : List (Branch Node)) :
    branchesCanonical first (branch :: more) =
      (if first then Lexeme.ifStart branch.path else .elifTag branch.path).canonical ++
        branch.body.canonical ++ branchesCanonical false more := by
  obtain ⟨path, span, body⟩ := branch
  simp [branchesCanonical, canonical, branchTokens, Token.canonical, String.join_cons,
    String.join_append, String.append_assoc]

/-- A sequence is written as its children one after the other. -/
theorem canonical_concat (children : List Node) :
    (concat children).canonical = .join (children.map canonical) := by
  rw [canonical, tokens]
  induction children with
  | nil => rfl
  | cons child more ih =>
    rw [allTokens, List.map_append, String.join_append, ih, List.map_cons, String.join_cons]
    rfl

/-- The context decides nothing of the expression itself: a place of a value has no text, a loop has
no items, and a conditional has a first condition, which is unknown. -/
def Untouched (context : Context) : Node → Prop
  | .use path _ => ∀ content, context.resolve? path.parts ≠ some (.text content)
  | .loop _ path _ _ _ => (context.resolve? path.parts).bind Value.loopItems? = none
  | .choice branches _ _ => decision context (branches.map (·.path)) = .undecided 0
  | .raw _ _ | .invalid _ _ | .unexpected _ | .concat _ => True

/-- The context decides nothing of the expression and of all expressions inside it. -/
def Undecided (context : Context) (node : Node) : Prop := node.Throughout (Untouched context)

section

variable {context : Context}

/-- A place of a value without a text is written out as its tag. -/
theorem render_use_of_untouched {path : Path} {span : Span}
    (unknown : (use path span).Untouched context) :
    (use path span).render context = (Lexeme.use path).canonical := by
  rw [render]
  split
  · next content found => exact absurd found (unknown content)
  · rfl

/-- A place of a value without a text stays. -/
theorem residual_use_of_untouched {path : Path} {span : Span}
    (unknown : (use path span).Untouched context) :
    (use path span).residual context = use path span := by
  rw [residual]
  split
  · next content found => exact absurd found (unknown content)
  · rfl

/-- Further branches are written out in canonical form when their bodies are. -/
theorem writeRest_eq_canonical {branches : List (Branch Node)}
    (bodies : ∀ branch ∈ branches, branch.body.render context = branch.body.canonical) :
    writeRest branches context = branchesCanonical false branches := by
  induction branches with
  | nil => rfl
  | cons branch more ih =>
    have own : branch.body.render context = branch.body.canonical := bodies branch (by simp)
    have others := ih fun b member => bodies b (List.mem_cons_of_mem _ member)
    rw [branchesCanonical_cons, ← own, ← others]
    rfl

/-- An alternative is written out in canonical form when its body is. -/
theorem writeAlternative_eq_canonical {otherwise : Option (Alternative Node)}
    (last : ∀ alternative, otherwise = some alternative →
      alternative.body.render context = alternative.body.canonical) :
    writeAlternative otherwise context =
      .join ((alternativeTokens otherwise).map Token.canonical) := by
  cases otherwise with
  | none => rfl
  | some alternative =>
    obtain ⟨span, body⟩ := alternative
    have own : body.render context = body.canonical := last ⟨span, body⟩ rfl
    rw [writeAlternative, own, alternativeTokens, List.map_cons, String.join_cons]
    rfl

/-- An expression of which nothing is decided is written out as its tokens in canonical form. -/
theorem render_of_undecided {node : Node} (undecided : node.Undecided context) :
    node.render context = node.canonical := by
  induction node using inductionOn with
  | raw text span => simp [canonical, render, tokens, Token.canonical, Lexeme.canonical]
  | invalid text span => simp [canonical, render, tokens, Token.canonical, Lexeme.canonical]
  | unexpected token => simp [canonical, render, tokens]
  | use path span =>
    have unknown : (use path span).Untouched context := by simpa [Undecided] using undecided
    rw [render_use_of_untouched unknown]
    simp [canonical, tokens, Token.canonical]
  | loop var path opening closing body ih =>
    obtain ⟨unknown, inside⟩ := (throughout_loop ..).mp undecided
    have items : (context.resolve? path.parts).bind Value.loopItems? = none := unknown
    rw [render, items, canonical_loop, ih inside]
  | choice branches otherwise closing bodies last =>
    obtain ⟨unknown, inBranches, inLast⟩ := (throughout_choice ..).mp undecided
    have first : decision context (branches.map (·.path)) = .undecided 0 := unknown
    have each : ∀ branch ∈ branches, branch.body.render context = branch.body.canonical :=
      fun branch member => bodies branch member (inBranches branch member)
    have alternative := writeAlternative_eq_canonical fun alternative same =>
      last alternative same (inLast alternative same)
    rw [render, first, canonical_choice, ← alternative]
    -- With no branch at all there would be no first condition.
    cases branches with
    | nil => contradiction
    | cons branch more =>
      have own : branch.body.render context = branch.body.canonical := each branch (by simp)
      have others := writeRest_eq_canonical fun b member =>
        each b (List.mem_cons_of_mem _ member)
      rw [branchesCanonical_cons, ← own, ← others]
      rfl
  | concat children ih =>
    obtain ⟨-, inside⟩ := (throughout_concat ..).mp undecided
    rw [render, renderAll_eq_join, canonical_concat]
    congr 1
    exact List.map_congr_left fun child member => ih child member (inside child member)

/-- An expression of which nothing is decided is left as it is. -/
theorem residual_of_undecided {node : Node} (undecided : node.Undecided context) :
    node.residual context = node := by
  induction node using inductionOn with
  | raw text span => rfl
  | invalid text span => rfl
  | unexpected token => rfl
  | use path span => exact residual_use_of_untouched (by simpa [Undecided] using undecided)
  | loop var path opening closing body ih =>
    obtain ⟨unknown, -⟩ := (throughout_loop ..).mp undecided
    have items : (context.resolve? path.parts).bind Value.loopItems? = none := unknown
    rw [residual, items]
  | choice branches otherwise closing bodies last =>
    obtain ⟨unknown, -⟩ := (throughout_choice ..).mp undecided
    have first : decision context (branches.map (·.path)) = .undecided 0 := unknown
    rw [residual, first]
    rfl
  | concat children ih =>
    obtain ⟨-, inside⟩ := (throughout_concat ..).mp undecided
    have same : children.map (·.residual context) = children.map id :=
      List.map_congr_left fun child member => ih child member (inside child member)
    rw [residual, residuals_eq_map, same, List.map_id]

end

end TextTemplate.Expression.Node
