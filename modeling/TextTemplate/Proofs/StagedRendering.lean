import TextTemplate.Proofs.MapOrder
import TextTemplate.Proofs.Mentions
import TextTemplate.Template

/-!
# Rendering in two stages

A first stage decides what its context knows and leaves the rest for a later one. A loop that it
unrolls binds its variable for every item, but what is left of a body does not keep that binding: a
later stage reads it as if the loop had never been around it. So rendering in two stages gives the
text of all leftovers without the loops that stood around them, and rendering at once gives their
text inside these loops. The two agree exactly where that makes no difference.
-/

namespace TextTemplate

open Data Evaluation Expression Markup

/-- A part of an expression that is left over by a first stage, together with what the loops
unrolled around it bound to their variables, the outermost loop first. -/
structure Leftover where
  /-- What the unrolled loops bound. -/
  bindings : List (String × Value)
  /-- The part that is left. -/
  node : Node

namespace Leftover

/-- A part that is left outside of any loop. -/
def bare (node : Node) : Leftover := ⟨[], node⟩

/-- The part inside one more unrolled loop. -/
def inside (name : String) (item : Value) (leftover : Leftover) : Leftover :=
  ⟨(name, item) :: leftover.bindings, leftover.node⟩

/-- The text of the part with the unrolled loops forgotten. -/
def textOutside (context : Context) (leftover : Leftover) : String := leftover.node.render context

/-- The text of the part inside the unrolled loops. -/
def textInside (context : Context) (leftover : Leftover) : String :=
  leftover.node.render (context.bindAll leftover.bindings)

/-- A part outside of any loop gives its own text, forgetting nothing. -/
theorem join_bare (context : Context) (node : Node) :
    String.join ([bare node].map (textOutside context)) = node.render context ∧
      String.join ([bare node].map (textInside context)) = node.render context := by
  simp [bare, textOutside, textInside, Context.bindAll]

/-- Forgetting the unrolled loops changes nothing that the part mentions. -/
def Closed (context : Context) (leftover : Leftover) : Prop :=
  Node.Alike leftover.node.mentions context (context.bindAll leftover.bindings)

instance (context : Context) (leftover : Leftover) : Decidable (leftover.Closed context) :=
  inferInstanceAs (Decidable (Node.Alike _ _ _))

end Leftover

namespace Expression.Node

mutual

/-- What a first stage leaves over of an expression, from left to right. -/
def leftovers : Node → Context → List Leftover
  | .raw text span, _ => [.bare (.raw text span)]
  | .invalid text span, _ => [.bare (.invalid text span)]
  | .use path span, context =>
    match context.resolve? path.parts with
    | some (.text content) => [.bare (.raw content span)]
    | _ => [.bare (.use path span)]
  | .unexpected token, _ => [.bare (.unexpected token)]
  | .loop var path opening closing body, context =>
    match (context.resolve? path.parts).bind Value.loopItems? with
    | some items =>
      items.flatMap fun item =>
        (body.leftovers (context.bind var.text item)).map (.inside var.text item)
    | none => [.bare (.loop var path opening closing body)]
  | .choice branches otherwise closing, context =>
    match decision context (branches.map (·.path)) with
    | .undecided index => [.bare (.choice (branches.drop index) otherwise closing)]
    | .taken index => branchLeftovers index branches context
    | .exhausted => alternativeLeftovers otherwise context
  | .concat children, context => allLeftovers children context

/-- What is left over of the branch at an index. -/
def branchLeftovers : Nat → List (Branch Node) → Context → List Leftover
  | _, [], _ => []
  | 0, ⟨_, _, body⟩ :: _, context => body.leftovers context
  | index + 1, _ :: more, context => branchLeftovers index more context

/-- What is left over of an alternative. -/
def alternativeLeftovers : Option (Alternative Node) → Context → List Leftover
  | none, _ => []
  | some ⟨_, body⟩, context => body.leftovers context

/-- What is left over of expressions in a row. -/
def allLeftovers : List Node → Context → List Leftover
  | [], _ => []
  | node :: more, context => node.leftovers context ++ allLeftovers more context

end

/-- A branch taken leaves over what its body does. -/
theorem branchLeftovers_eq_elim (index : Nat) (branches : List (Branch Node)) (context : Context) :
    branchLeftovers index branches context =
      branches[index]?.elim [] fun branch => branch.body.leftovers context := by
  induction branches generalizing index with
  | nil => simp [branchLeftovers]
  | cons branch more ih => cases index <;> simp [branchLeftovers, ih]

/-- Expressions in a row leave over what each of them does. -/
theorem allLeftovers_eq_flatMap (nodes : List Node) (context : Context) :
    allLeftovers nodes context = nodes.flatMap (·.leftovers context) := by
  induction nodes with
  | nil => rfl
  | cons node more ih => rw [allLeftovers, ih, List.flatMap_cons]

/-- Texts of rows are joined row by row. -/
theorem join_map_flatMap {α β : Type} (rows : List α) (row : α → List β) (text : β → String) :
    String.join ((rows.flatMap row).map text) =
      .join (rows.map fun a => .join ((row a).map text)) := by
  induction rows with
  | nil => rfl
  | cons first more ih =>
    rw [List.flatMap_cons, List.map_append, String.join_append, ih, List.map_cons,
      String.join_cons]

/-- A later stage gives the texts of the leftovers, without the loops that were unrolled. -/
theorem render_residual (node : Node) (context later : Context) :
    (node.residual context).render later =
      .join ((node.leftovers context).map (Leftover.textOutside later)) := by
  induction node using inductionOn generalizing context with
  | raw text span => exact (Leftover.join_bare later _).1.symm
  | invalid text span => exact (Leftover.join_bare later _).1.symm
  | unexpected token => exact (Leftover.join_bare later _).1.symm
  | use path span =>
    rw [residual, leftovers]
    cases context.resolve? path.parts with
    | none => exact (Leftover.join_bare later _).1.symm
    | some value => cases value <;> exact (Leftover.join_bare later _).1.symm
  | loop var path opening closing body ih =>
    rw [residual, leftovers]
    cases (context.resolve? path.parts).bind Value.loopItems? with
    | none => exact (Leftover.join_bare later _).1.symm
    | some items =>
      have forgotten (item : Value) (found : List Leftover) :
          (found.map (Leftover.inside var.text item)).map (Leftover.textOutside later) =
            found.map (Leftover.textOutside later) := by
        rw [List.map_map]
        rfl
      simp only [render, renderAll_eq_join, List.map_map, join_map_flatMap, forgotten]
      congr 1
      exact List.map_congr_left fun item _ => ih _
  | choice branches otherwise closing bodies last =>
    rw [residual, leftovers]
    cases decision context (branches.map (·.path)) with
    | undecided index => exact (Leftover.join_bare later _).1.symm
    | taken index =>
      simp only [residualBranch_eq_elim, branchLeftovers_eq_elim]
      cases found : branches[index]? with
      | none => rfl
      | some branch => exact bodies branch (List.mem_of_getElem? found) context
    | exhausted =>
      cases otherwise with
      | none => rfl
      | some alternative => exact last alternative rfl context
  | concat children ih =>
    rw [residual, leftovers, render, renderAll_eq_join, residuals_eq_map,
      allLeftovers_eq_flatMap, join_map_flatMap, List.map_map]
    congr 1
    exact List.map_congr_left fun child member => ih child member context

/-- Conditions that are known to fail may be left out: the text is that of the conditional without
their branches. -/
theorem render_choice_drop {branches : List (Branch Node)} {context : Context} {index : Nat}
    (fails : decision context (branches.map (·.path)) =
      (decision context ((branches.drop index).map (·.path))).shift index)
    (otherwise : Option (Alternative Node)) (closing : Text.Span) :
    (choice branches otherwise closing).render context =
      (choice (branches.drop index) otherwise closing).render context := by
  rw [render, render, fails]
  cases decision context ((branches.drop index).map (·.path)) with
  | undecided more =>
    simp only [Decision.shift]
    rw [writeFrom_eq_drop, writeFrom_eq_drop more, List.drop_drop]
  | taken more =>
    simp only [Decision.shift, renderBranch_eq_elim, List.getElem?_drop]
  | exhausted => rfl

/-- Rendering at once gives the texts of the leftovers inside the loops that were unrolled. -/
theorem render_eq_leftovers (node : Node) {context later : Context}
    (grown : later.Extends context) :
    node.render later = .join ((node.leftovers context).map (Leftover.textInside later)) := by
  induction node using inductionOn generalizing context later with
  | raw text span => exact (Leftover.join_bare later _).2.symm
  | invalid text span => exact (Leftover.join_bare later _).2.symm
  | unexpected token => exact (Leftover.join_bare later _).2.symm
  | use path span =>
    rw [leftovers]
    cases found : context.resolve? path.parts with
    | none => exact (Leftover.join_bare later _).2.symm
    | some value =>
      cases value with
      | text content =>
        rw [render, grown.resolve? found]
        exact (Leftover.join_bare later (.raw content span)).2.symm
      | list items => exact (Leftover.join_bare later _).2.symm
      | map fields => exact (Leftover.join_bare later _).2.symm
  | loop var path opening closing body ih =>
    rw [leftovers]
    cases found : (context.resolve? path.parts).bind Value.loopItems? with
    | none => exact (Leftover.join_bare later _).2.symm
    | some items =>
      obtain ⟨value, led, looped⟩ := Option.bind_eq_some_iff.mp found
      have bound (item : Value) (left : List Leftover) :
          (left.map (Leftover.inside var.text item)).map (Leftover.textInside later) =
            left.map (Leftover.textInside (later.bind var.text item)) := by
        rw [List.map_map]
        rfl
      rw [render, grown.resolve? led, Option.bind_some, looped]
      simp only [join_map_flatMap, bound]
      congr 1
      exact List.map_congr_left fun item _ => ih (grown.bind var.text item)
  | choice branches otherwise closing bodies last =>
    have decided := decision_extends grown (branches.map (·.path))
    rw [leftovers]
    cases known : decision context (branches.map (·.path)) with
    | undecided index =>
      simp only [known, ← List.map_drop] at decided
      rw [render_choice_drop decided]
      exact (Leftover.join_bare later _).2.symm
    | taken index =>
      rw [known] at decided
      rw [render, decided]
      simp only [renderBranch_eq_elim, branchLeftovers_eq_elim]
      cases found : branches[index]? with
      | none => rfl
      | some branch => exact bodies branch (List.mem_of_getElem? found) grown
    | exhausted =>
      rw [known] at decided
      rw [render, decided]
      cases otherwise with
      | none => rfl
      | some alternative => exact last alternative rfl grown
  | concat children ih =>
    rw [leftovers, render, renderAll_eq_join, allLeftovers_eq_flatMap, join_map_flatMap]
    congr 1
    exact List.map_congr_left fun child member => ih child member grown

/-- A leftover to which the unrolled loops make no difference has the same text without them. -/
theorem textOutside_of_closed {context : Context} {leftover : Leftover}
    (closed : leftover.Closed context) :
    leftover.textOutside context = leftover.textInside context :=
  render_congr leftover.node _ _ closed

end Expression.Node

/-- The text of a template rendered in two stages: what the first context leaves of its tree is
rendered under the second one. -/
def renderStaged (limit : Int) (text : String) (first later : Context) : String :=
  ((parse limit text).residual first).render later

/-- Rendering in two stages, where the second context extends the first one. The stages give the
texts of all leftovers outside the loops that the first stage unrolled; rendering at once gives
their texts inside these loops. So the two agree whenever forgetting the unrolled loops changes
nothing that a leftover mentions. -/
theorem renderStaged_spec (limit : Int) (text : String) {first later : Context}
    (grown : later.Extends first) :
    renderStaged limit text first later =
      .join (((parse limit text).leftovers first).map (Leftover.textOutside later)) ∧
    renderText limit text later =
      .join (((parse limit text).leftovers first).map (Leftover.textInside later)) ∧
    ((∀ leftover ∈ (parse limit text).leftovers first, leftover.Closed later) →
      renderStaged limit text first later = renderText limit text later) := by
  have staged : renderStaged limit text first later = _ :=
    (parse limit text).render_residual first later
  have direct : renderText limit text later = _ := (parse limit text).render_eq_leftovers grown
  refine ⟨staged, direct, fun closed => ?_⟩
  rw [staged, direct]
  congr 1
  exact List.map_congr_left fun leftover member => Node.textOutside_of_closed (closed _ member)

/-- Where the first stage uses up all that hangs on the loop variable, nothing is lost. -/
theorem renderStaged_greetings :
    let text := statement "for u in users" ++ interpolation "u.name" ++ ": " ++
      interpolation "greeting" ++ "\n" ++ statement "endfor"
    let first : Context :=
      ⟨[("users", .list [.map [("name", .text "a")], .map [("name", .text "b")]])]⟩
    let later := first.bind "greeting" (.text "hi")
    later.Extends first ∧
      (∀ leftover ∈ (parse defaultNesting text).leftovers first, leftover.Closed later) ∧
      renderStaged defaultNesting text first later = renderText defaultNesting text later ∧
      renderText defaultNesting text later = "a: hi\nb: hi\n" := by
  intro text first later
  have grown : later.Extends first := Context.extends_bind rfl _
  have closed : ∀ leftover ∈ (parse defaultNesting text).leftovers first,
      leftover.Closed later := by decide +kernel
  have agree := (renderStaged_spec defaultNesting text grown).2.2 closed
  exact ⟨grown, closed, agree, by decide +kernel⟩

/-- A conditional that the first stage leaves inside an unrolled loop loses the loop variable. -/
theorem renderStaged_loses_variable :
    let text := statement "for x in xs" ++ statement "if y" ++ interpolation "x" ++
      statement "endif" ++ statement "endfor"
    let first : Context := ⟨[("xs", .list [.text "a", .text "b"])]⟩
    let later := first.bind "y" (.text "1")
    later.Extends first ∧
      renderStaged defaultNesting text first later = interpolation "x" ++ interpolation "x" ∧
      renderText defaultNesting text later = "ab" := by
  intro text first later
  exact ⟨Context.extends_bind rfl _, by decide +kernel, by decide +kernel⟩

end TextTemplate
