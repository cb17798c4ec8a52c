import TextTemplate.Expression.Node

/-!
# The shape of a tree

The shape of an expression is what is left of it when all spans are taken away. Two texts that
differ in blanks inside their tags only have expressions of the same shape. A shape is a label
with the shapes of the parts below it.
-/

namespace TextTemplate.Expression

open Markup

/-- What a shape says about an expression itself. -/
inductive Label where
  /-- Literal text. -/
  | raw (text : String)
  /-- A tag that could not be read. -/
  | invalid (text : String)
  /-- The place of a value. -/
  | use (parts : List String)
  /-- A token that no construct could use, by its kind and its canonical form. -/
  | unexpected (kind : TokenKind) (text : String)
  /-- A loop; its body is below it. -/
  | loop (var : String) (parts : List String)
  /-- A conditional; the bodies of its branches are below it, and its alternative last. -/
  | choice (conditions : List (List String)) (alternative : Bool)
  /-- A sequence; its children are below it. -/
  | concat
  deriving DecidableEq

/-- A label and the shapes below it. -/
inductive Shape where
  /-- Puts shapes below a label. -/
  | node (label : Label) (parts : List Shape)

namespace Shape

mutual

/-- Whether two shapes are the same. -/
def same : Shape → Shape → Bool
  | .node label parts, .node label' parts' => label == label' && sameAll parts parts'

/-- Whether two rows of shapes are the same. -/
def sameAll : List Shape → List Shape → Bool
  | [], [] => true
  | shape :: more, shape' :: more' => same shape shape' && sameAll more more'
  | _, _ => false

end

mutual

/-- The comparison answers whether two shapes are equal. -/
theorem same_iff : ∀ shape other : Shape, same shape other = true ↔ shape = other
  | .node label parts, .node label' parts' => by simp [same, sameAll_iff parts parts']

/-- The comparison answers whether two rows of shapes are equal. -/
theorem sameAll_iff : ∀ shapes others : List Shape, sameAll shapes others = true ↔ shapes = others
  | [], [] => by simp [sameAll]
  | [], _ :: _ => by simp [sameAll]
  | _ :: _, [] => by simp [sameAll]
  | shape :: more, shape' :: more' => by
    simp [sameAll, same_iff shape shape', sameAll_iff more more']

end

/-- Shapes are compared in full. -/
instance : DecidableEq Shape := fun shape other =>
  decidable_of_iff (same shape other = true) (same_iff shape other)

end Shape

namespace Node

mutual

/-- The shape of an expression. -/
def shape : Node → Shape
  | .raw text _ => .node (.raw text) []
  | .invalid text _ => .node (.invalid text) []
  | .use path _ => .node (.use path.parts) []
  | .unexpected token => .node (.unexpected token.kind token.canonical) []
  | .loop var path _ _ body => .node (.loop var.text path.parts) [body.shape]
  | .choice branches otherwise _ =>
    .node (.choice (branches.map fun branch => branch.path.parts) otherwise.isSome)
      (branchShapes branches ++ alternativeShape otherwise)
  | .concat children => .node .concat (shapes children)

/-- The shapes of the bodies of branches. -/
def branchShapes : List (Branch Node) → List Shape
  | [] => []
  | ⟨_, _, body⟩ :: more => body.shape :: branchShapes more

/-- The shape of an alternative, if there is one. -/
def alternativeShape : Option (Alternative Node) → List Shape
  | none => []
  | some ⟨_, body⟩ => [body.shape]

/-- The shapes of expressions. -/
def shapes : List Node → List Shape
  | [] => []
  | node :: more => node.shape :: shapes more

end

/-- Branches contribute the shapes of their bodies. -/
theorem branchShapes_eq_map (branches : List (Branch Node)) :
    branchShapes branches = branches.map fun branch => branch.body.shape := by
  induction branches with
  | nil => rfl
  | cons branch more ih => simp [branchShapes, ih]

/-- An alternative contributes the shape of its body. -/
theorem alternativeShape_eq_map (otherwise : Option (Alternative Node)) :
    alternativeShape otherwise =
      (otherwise.map fun alternative => alternative.body.shape).toList := by
  cases otherwise <;> simp [alternativeShape]

/-- Children contribute their shapes. -/
theorem shapes_eq_map (nodes : List Node) : shapes nodes = nodes.map shape := by
  induction nodes with
  | nil => rfl
  | cons node more ih => simp [shapes, ih]

end Node

end TextTemplate.Expression
