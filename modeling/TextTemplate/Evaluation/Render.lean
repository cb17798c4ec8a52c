import TextTemplate.Evaluation.Decision
import TextTemplate.Expression.Node

/-!
# The text of a template under a context

Missing data is no error. A place whose value is missing or is no text is written out again as its
tag. A loop or conditional that cannot be decided is written out as its tags around a single pass
over its bodies, so that the text can be read as a template once more.
-/

namespace TextTemplate.Expression.Node

open Data Evaluation Markup

mutual

/-- The text of an expression. -/
def render : Node → Context → String
  | .raw text _, _ => text
  | .invalid text _, _ => text
  | .use path _, context =>
    match context.resolve? path.parts with
    | some (.text content) => content
    | _ => (Lexeme.use path).canonical
  | .unexpected token, _ => token.canonical
  | .loop var path _ _ body, context =>
    match (context.resolve? path.parts).bind Value.loopItems? with
    | some items => .join (items.map fun item => body.render (context.bind var.text item))
    | none =>
      (Lexeme.forStart var path).canonical ++ body.render context ++ Lexeme.forEnd.canonical
  | .choice branches otherwise _, context =>
    match decision context (branches.map (·.path)) with
    | .undecided index =>
      writeFrom index branches context ++ writeAlternative otherwise context
        ++ Lexeme.ifEnd.canonical
    | .taken index => renderBranch index branches context
    | .exhausted => renderAlternative otherwise context
  | .concat children, context => renderAll children context

/-- The text of the branch at an index. -/
def renderBranch : Nat → List (Branch Node) → Context → String
  | _, [], _ => ""
  | 0, ⟨_, _, body⟩ :: _, context => body.render context
  | index + 1, _ :: more, context => renderBranch index more context

/-- The branches from an index on written out with their tags, the first as if nothing stood
before it. -/
def writeFrom : Nat → List (Branch Node) → Context → String
  | _, [], _ => ""
  | 0, ⟨path, _, body⟩ :: more, context =>
    (Lexeme.ifStart path).canonical ++ body.render context ++ writeRest more context
  | index + 1, _ :: more, context => writeFrom index more context

/-- Further branches written out with their tags. -/
def writeRest : List (Branch Node) → Context → String
  | [], _ => ""
  | ⟨path, _, body⟩ :: more, context =>
    (Lexeme.elifTag path).canonical ++ body.render context ++ writeRest more context

/-- An alternative written out with its tag. -/
def writeAlternative : Option (Alternative Node) → Context → String
  | none, _ => ""
  | some ⟨_, body⟩, context => Lexeme.elseTag.canonical ++ body.render context

/-- The text of an alternative, empty where there is none. -/
def renderAlternative : Option (Alternative Node) → Context → String
  | none, _ => ""
  | some ⟨_, body⟩, context => body.render context

/-- The texts of expressions one after the other. -/
def renderAll : List Node → Context → String
  | [], _ => ""
  | node :: more, context => node.render context ++ renderAll more context

end

/-- Expressions in a row contribute their texts. -/
theorem renderAll_eq_join (nodes : List Node) (context : Context) :
    renderAll nodes context = .join (nodes.map (·.render context)) := by
  induction nodes with
  | nil => rfl
  | cons node more ih => simp [renderAll, ih, String.join_cons]

/-- A branch taken contributes the text of its body. -/
theorem renderBranch_eq_elim (index : Nat) (branches : List (Branch Node)) (context : Context) :
    renderBranch index branches context =
      branches[index]?.elim "" fun branch => branch.body.render context := by
  induction branches generalizing index with
  | nil => simp [renderBranch]
  | cons branch more ih => cases index <;> simp [renderBranch, ih]

/-- Branches are written out from an index on as if those before it were not there. -/
theorem writeFrom_eq_drop (index : Nat) (branches : List (Branch Node)) (context : Context) :
    writeFrom index branches context = writeFrom 0 (branches.drop index) context := by
  induction branches generalizing index with
  | nil => simp [writeFrom]
  | cons branch more ih =>
    cases index with
    | zero => rfl
    | succ index => simpa [writeFrom] using ih index

end TextTemplate.Expression.Node
