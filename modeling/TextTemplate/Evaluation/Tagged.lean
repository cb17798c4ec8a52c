import TextTemplate.Data.Value
import TextTemplate.Expression.Tree

/-!
# Evaluating trees that keep their tags

Both evaluations once more, on expressions that hold their tokens. What is written out is what the
tokens held say, and the conditions of a conditional are looked up at the paths of the tags in front
of its branches. An undecided conditional is first cut in front of the branch it is undecided at,
and tagged anew there, and only then written out or left.
-/

namespace TextTemplate.Expression

open Data Markup

namespace Conditional

variable {α β : Type}

/-- Goes through branches, the first one at the index `index`. What is done hangs on the first
condition that is unknown or holds. -/
def selectFrom (context : Context) (undecided : Nat → Except Fault α) (taken : β → Except Fault α)
    (exhausted : Except Fault α) : Nat → List (Tagged β) → Except Fault α
  | _, [] => exhausted
  | index, ⟨token, body⟩ :: more => do
    match context.resolve? (← token.tryPath).parts with
    | none => undecided index
    | some value =>
      if value.truthy then taken body
      else selectFrom context undecided taken exhausted (index + 1) more

/-- Does what a context selects: something with the index of the condition that it does not know, or
something with what stands behind the tag of the branch taken. Where no branch is taken, there is
`nothing` to do. -/
def select (context : Context) (undecided : Nat → Except Fault α) (taken : β → Except Fault α)
    (nothing : α) (conditional : Conditional β) : Except Fault α :=
  selectFrom context undecided taken
    (conditional.otherwise.elim (return nothing) fun alternative => taken alternative.body) 0
    conditional.branches

/-- The text of a conditional that is written out: each tag in front of the text behind it, and the
last tag at the end. -/
def written (texts : Conditional (Except Fault String)) : Except Fault String := do
  let parts ← (texts.tags.zip texts.bodies).mapM fun part => return part.1.canonical ++ (← part.2)
  return .join parts ++ texts.closer.canonical

end Conditional

namespace Tree

mutual

/-- The text of an expression. -/
def render : Tree → Context → Except Fault String
  | .raw token, _ | .invalid token, _ | .unexpected token, _ => return token.canonical
  | .use token, context => do
    match context.resolve? (← token.tryPath).parts with
    | some (.text content) => return content
    | _ => return token.canonical
  | .loop var path opener closer body, context =>
    match (context.resolve? path.parts).bind Value.loopItems? with
    | some items => do
      return .join (← items.mapM fun item => body.render (context.bind var.text item))
    | none => do return opener.canonical ++ (← body.render context) ++ closer.canonical
  | .choice branches otherwise closer, context =>
    let texts : Conditional (Except Fault String) :=
      ⟨renderBranches branches context, renderLast otherwise context, closer⟩
    texts.select context (fun index => do (← texts.fromBranch index).written) id ""
  | .concat children, context => do return .join (← renderAll children context)

/-- The texts behind the tags of branches. -/
def renderBranches : List (Tagged Tree) → Context → List (Tagged (Except Fault String))
  | [], _ => []
  | ⟨token, body⟩ :: more, context => ⟨token, body.render context⟩ :: renderBranches more context

/-- The text behind the tag of an alternative. -/
def renderLast : Option (Tagged Tree) → Context → Option (Tagged (Except Fault String))
  | none, _ => none
  | some ⟨token, body⟩, context => some ⟨token, body.render context⟩

/-- The texts of expressions. -/
def renderAll : List Tree → Context → Except Fault (List String)
  | [], _ => return []
  | tree :: more, context => do return (← tree.render context) :: (← renderAll more context)

end

mutual

/-- What is left of an expression. -/
def residual : Tree → Context → Except Fault Tree
  | .raw token, _ => return .raw token
  | .invalid token, _ => return .invalid token
  | .unexpected token, _ => return .unexpected token
  | .use token, context => do
    match context.resolve? (← token.tryPath).parts with
    | some (.text content) => return .raw ⟨.raw content, token.span⟩
    | _ => return .use token
  | .loop var path opener closer body, context =>
    match (context.resolve? path.parts).bind Value.loopItems? with
    | some items => do
      return .concat (← items.mapM fun item => body.residual (context.bind var.text item))
    | none => return .loop var path opener closer body
  | .choice branches otherwise closer, context =>
    let left : Conditional (Except Fault Tree) :=
      ⟨residualBranches branches context, residualLast otherwise context, closer⟩
    left.select context
      (fun index => (Conditional.fromBranch index ⟨branches, otherwise, closer⟩).map ofConditional)
      id (.concat [])
  | .concat children, context => do return .concat (← residuals children context)

/-- What is left behind the tags of branches. -/
def residualBranches : List (Tagged Tree) → Context → List (Tagged (Except Fault Tree))
  | [], _ => []
  | ⟨token, body⟩ :: more, context =>
    ⟨token, body.residual context⟩ :: residualBranches more context

/-- What is left behind the tag of an alternative. -/
def residualLast : Option (Tagged Tree) → Context → Option (Tagged (Except Fault Tree))
  | none, _ => none
  | some ⟨token, body⟩, context => some ⟨token, body.residual context⟩

/-- What is left of expressions one by one. -/
def residuals : List Tree → Context → Except Fault (List Tree)
  | [], _ => return []
  | tree :: more, context => do return (← tree.residual context) :: (← residuals more context)

end

end Tree

end TextTemplate.Expression
