import TextTemplate.Proofs.ContextExtension
import TextTemplate.Proofs.UndecidedTrees

/-!
# What is left without loops and conditionals carries the text

When all loops and conditionals of an expression are decided, what is left of it is a sequence of
texts and of places of values that have none. Whatever it is rendered under later, it gives the text
of the expression itself, as long as the later context has no text for these places either. About a
loop or a conditional that is still undecided nothing is said here.
-/

namespace TextTemplate.Expression.Node

open Data Evaluation Markup Text

/-- The expression is neither a loop nor a conditional. -/
def NoConstruct (node : Node) : Prop := node.kind ≠ .loop ∧ node.kind ≠ .choice

/-- There is neither a loop nor a conditional inside the expression. -/
def Settled (node : Node) : Prop := node.Throughout NoConstruct

/-- The text that the context has for a place of a value, absent for any other expression. -/
def text? (context : Context) : Node → Option String
  | .use path _ =>
    match context.resolve? path.parts with
    | some (.text content) => some content
    | _ => none
  | _ => none

/-- The context has no text for any place of a value inside the expression. -/
def Textless (context : Context) (node : Node) : Prop :=
  ∀ inner ∈ node.subnodes, inner.text? context = none

instance (node : Node) : Decidable node.Settled :=
  inferInstanceAs (Decidable (∀ inner ∈ node.subnodes, inner.kind ≠ .loop ∧ inner.kind ≠ .choice))

instance (context : Context) (node : Node) : Decidable (node.Textless context) :=
  inferInstanceAs (Decidable (∀ inner ∈ node.subnodes, inner.text? context = none))

/-- A place has the text that its path leads to. -/
theorem text?_use_of_text {context : Context} {path : Path} {content : String}
    (found : context.resolve? path.parts = some (.text content)) (span : Span) :
    (use path span).text? context = some content := by
  rw [text?, found]

/-- A loop is not settled. -/
theorem not_settled_loop (var : Ident) (path : Path) (opening closing : Span) (body : Node) :
    ¬(loop var path opening closing body).Settled := by
  intro settled
  obtain ⟨own, -⟩ := (throughout_loop ..).mp settled
  exact own.1 rfl

/-- A conditional is not settled. -/
theorem not_settled_choice (branches : List (Branch Node))
    (otherwise : Option (Alternative Node)) (closing : Span) :
    ¬(choice branches otherwise closing).Settled := by
  intro settled
  obtain ⟨own, -⟩ := (throughout_choice ..).mp settled
  exact own.2 rfl

/-- The children of a settled sequence are settled. -/
theorem settled_of_mem {children : List Node} (settled : (concat children).Settled) {child : Node}
    (member : child ∈ children) : child.Settled :=
  ((throughout_concat ..).mp settled).2 child member

/-- An expression that hangs on no context is settled and has no place of a value inside. -/
theorem throughout_of_isFree {node : Node} (free : node.isFree = true) :
    node.Throughout fun inner => inner.NoConstruct ∧ inner.kind ≠ .use := by
  induction node using inductionOn with
  | raw text span => exact (throughout_raw ..).mpr ⟨⟨nofun, nofun⟩, nofun⟩
  | invalid text span => exact (throughout_invalid ..).mpr ⟨⟨nofun, nofun⟩, nofun⟩
  | unexpected token => exact (throughout_unexpected ..).mpr ⟨⟨nofun, nofun⟩, nofun⟩
  | use path span => nomatch free
  | loop var path opening closing body ih => nomatch free
  | choice branches otherwise closing bodies last => nomatch free
  | concat children ih =>
    rw [isFree, areFree_eq_all, List.all_eq_true] at free
    exact (throughout_concat ..).mpr
      ⟨⟨⟨nofun, nofun⟩, nofun⟩, fun child member => ih child member (free child member)⟩

/-- Of a settled expression a context without texts for it decides nothing. -/
theorem Settled.undecided {node : Node} {context : Context} (settled : node.Settled)
    (textless : node.Textless context) : node.Undecided context := by
  intro inner member
  have own : inner.NoConstruct := settled inner member
  cases inner with
  | use path span =>
    intro content found
    have absent := textless (.use path span) member
    rw [text?_use_of_text found] at absent
    contradiction
  | loop var path opening closing body => exact absurd rfl own.1
  | choice branches otherwise closing => exact absurd rfl own.2
  | raw _ _ | invalid _ _ | unexpected _ | concat _ => trivial

/-- Where what is left of an expression is settled, its canonical form is the text of the
expression. -/
theorem canonical_residual {node : Node} {context : Context}
    (settled : (node.residual context).Settled) :
    (node.residual context).canonical = node.render context := by
  induction node using inductionOn generalizing context with
  | raw text span => simp [residual, canonical, render, tokens, Token.canonical, Lexeme.canonical]
  | invalid text span =>
    simp [residual, canonical, render, tokens, Token.canonical, Lexeme.canonical]
  | unexpected token => simp [residual, canonical, render, tokens]
  | use path span =>
    rw [residual, render]
    cases context.resolve? path.parts with
    | none => simp [canonical, tokens, Token.canonical]
    | some value =>
      cases value with
      | text content => simp [canonical, tokens, Token.canonical, Lexeme.canonical]
      | list items => simp [canonical, tokens, Token.canonical]
      | map fields => simp [canonical, tokens, Token.canonical]
  | loop var path opening closing body ih =>
    rw [residual] at settled ⊢
    rw [render]
    cases known : (context.resolve? path.parts).bind Value.loopItems? with
    | none =>
      rw [known] at settled
      exact absurd settled (not_settled_loop var path opening closing body)
    | some items =>
      simp only [known] at settled
      -- Every round is settled, whatever the loop binds in it.
      have round (item : Value) (member : item ∈ items) :
          (body.residual (context.bind var.text item)).canonical =
            body.render (context.bind var.text item) :=
        ih (settled_of_mem settled (List.mem_map_of_mem member))
      simp only [canonical_concat, List.map_map]
      congr 1
      exact List.map_congr_left round
  | choice branches otherwise closing bodies last =>
    have nothing : (concat []).canonical = "" := rfl
    rw [residual] at settled ⊢
    rw [render]
    cases known : decision context (branches.map (·.path)) with
    | undecided index =>
      simp only [known] at settled
      exact absurd settled (not_settled_choice _ otherwise closing)
    | taken index =>
      simp only [known, residualBranch_eq_elim] at settled
      simp only [residualBranch_eq_elim, renderBranch_eq_elim]
      cases found : branches[index]? with
      | none => exact nothing
      | some branch =>
        rw [found] at settled
        exact bodies branch (List.mem_of_getElem? found) settled
    | exhausted =>
      simp only [known] at settled
      cases otherwise with
      | none => exact nothing
      | some alternative => exact last alternative rfl settled
  | concat children ih =>
    rw [residual, residuals_eq_map] at settled ⊢
    rw [render, renderAll_eq_join, canonical_concat, List.map_map]
    congr 1
    exact List.map_congr_left fun child member =>
      ih child member (settled_of_mem settled (List.mem_map_of_mem member))

/-- What is left of an expression carries its text once no loop and no conditional is left: under
any later context without texts for the places of values that are left, it gives the text of the
expression under the first context. So it does under every later context when it hangs on none, and
under the empty one when only places of values are left. -/
theorem settled_residual_carries_text (node : Node) (context : Context) :
    (∀ later, (node.residual context).Settled → (node.residual context).Textless later →
      (node.residual context).render later = node.render context) ∧
    ((node.residual context).isFree = true →
      ∀ later, (node.residual context).render later = node.render context) ∧
    ((node.residual context).Settled →
      (node.residual context).render .empty = node.render context) := by
  have carries (later : Context) (settled : (node.residual context).Settled)
      (textless : (node.residual context).Textless later) :
      (node.residual context).render later = node.render context := by
    rw [render_of_undecided (settled.undecided textless), canonical_residual settled]
  refine ⟨carries, fun free later => ?_, fun settled => ?_⟩
  · have without := throughout_of_isFree free
    refine carries later (without.imp fun inner own => own.1) fun inner member => ?_
    have other := (without inner member).2
    cases inner with
    | use path span => exact absurd rfl other
    | raw _ _ | invalid _ _ | unexpected _ | loop _ _ _ _ _ | choice _ _ _ | concat _ => rfl
  · refine carries .empty settled fun inner _ => ?_
    -- The empty context leads no path to a text.
    cases inner <;> rfl

/-- A loop is unrolled whose variable hides a name that the later context binds as well. What is
left asks for a greeting, for which the later context has a list and no text. -/
theorem settled_residual_carries_names :
    let text := statement "for x in members" ++ statement "if x.admin" ++ "*" ++
      statement "endif" ++ interpolation "x.name" ++ interpolation "greeting" ++
      statement "endfor"
    let context : Context :=
      ⟨[("members", .list [.map [("admin", .text "yes"), ("name", .text "a")],
        .map [("admin", .text ""), ("name", .text "b")]])]⟩
    let later : Context := ⟨[("x", .text "?"), ("greeting", .list [.text "hi"])]⟩
    let left := (parse defaultNesting text).residual context
    left.Settled ∧ left.Textless later ∧ left.isFree = false ∧
      left.render later = (parse defaultNesting text).render context ∧
      left.render later = "*a" ++ interpolation "greeting" ++ "b" ++ interpolation "greeting" := by
  intro text context later left
  have settled : left.Settled := by decide +kernel
  have textless : left.Textless later := by decide +kernel
  have carried := (settled_residual_carries_text _ context).1 later settled textless
  exact ⟨settled, textless, by decide +kernel, carried, by decide +kernel⟩

end TextTemplate.Expression.Node
