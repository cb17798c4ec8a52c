import TextTemplate.Evaluation.Decision
import TextTemplate.Expression.Node

/-!
# What is left of a template once a context has decided what it can

The residual of an expression has known texts filled in, loops over known data unrolled, and known
conditionals reduced to the branch they select. Whatever cannot be decided yet stays unchanged,
its bodies included, and waits for a context that knows more.
-/

namespace TextTemplate.Expression.Node

open Data Evaluation

mutual

/-- What is left of an expression. -/
def residual : Node → Context → Node
  | .raw text span, _ => .raw text span
  | .invalid text span, _ => .invalid text span
  | .use path span, context =>
    match context.resolve? path.parts with
    | some (.text content) => .raw content span
    | _ => .use path span
  | .unexpected token, _ => .unexpected token
  | .loop var path opening closing body, context =>
    match (context.resolve? path.parts).bind Value.loopItems? with
    | some items => .concat (items.map fun item => body.residual (context.bind var.text item))
    | none => .loop var path opening closing body
  | .choice branches otherwise closing, context =>
    match decision context (branches.map (·.path)) with
    | .undecided index => .choice (branches.drop index) otherwise closing
    | .taken index => residualBranch index branches context
    | .exhausted => residualAlternative otherwise context
  | .concat children, context => .concat (residuals children context)

/-- What is left of the branch at an index. -/
def residualBranch : Nat → List (Branch Node) → Context → Node
  | _, [], _ => .concat []
  | 0, ⟨_, _, body⟩ :: _, context => body.residual context
  | index + 1, _ :: more, context => residualBranch index more context

/-- What is left of an alternative, an empty sequence where there is none. -/
def residualAlternative : Option (Alternative Node) → Context → Node
  | none, _ => .concat []
  | some ⟨_, body⟩, context => body.residual context

/-- What is left of expressions one by one. -/
def residuals : List Node → Context → List Node
  | [], _ => []
  | node :: more, context => node.residual context :: residuals more context

end

/-- Expressions in a row leave what is left of each. -/
theorem residuals_eq_map (nodes : List Node) (context : Context) :
    residuals nodes context = nodes.map (·.residual context) := by
  induction nodes with
  | nil => rfl
  | cons node more ih => simp [residuals, ih]

/-- A branch taken leaves what is left of its body. -/
theorem residualBranch_eq_elim (index : Nat) (branches : List (Branch Node)) (context : Context) :
    residualBranch index branches context =
      branches[index]?.elim (.concat []) fun branch => branch.body.residual context := by
  induction branches generalizing index with
  | nil => simp [residualBranch]
  | cons branch more ih => cases index <;> simp [residualBranch, ih]

/-- An alternative taken leaves what is left of its body. -/
theorem residualAlternative_eq_elim (otherwise : Option (Alternative Node)) (context : Context) :
    residualAlternative otherwise context =
      otherwise.elim (.concat []) fun alternative => alternative.body.residual context := by
  cases otherwise <;> simp [residualAlternative]

end TextTemplate.Expression.Node
