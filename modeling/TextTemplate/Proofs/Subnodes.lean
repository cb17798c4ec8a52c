import Mathlib.Logic.Basic
import TextTemplate.Expression.Node

/-!
# The expressions inside an expression

The expressions inside a tree are listed from left to right, each in front of those inside it.
Trees that hold an unexpected token somewhere are called flawed here. A property that every one of
the expressions inside has is said to hold throughout.
-/

namespace TextTemplate.Expression

open Text Markup

namespace Node

mutual

/-- An expression and all expressions inside it. -/
def subnodes : Node → List Node
  | .raw text span => [.raw text span]
  | .invalid text span => [.invalid text span]
  | .use path span => [.use path span]
  | .unexpected token => [.unexpected token]
  | .loop var path opening closing body => .loop var path opening closing body :: body.subnodes
  | .choice branches otherwise closing =>
    .choice branches otherwise closing ::
      (branchSubnodes branches ++ alternativeSubnodes otherwise)
  | .concat children => .concat children :: allSubnodes children

/-- All expressions inside branches. -/
def branchSubnodes : List (Branch Node) → List Node
  | [] => []
  | ⟨_, _, body⟩ :: more => body.subnodes ++ branchSubnodes more

/-- All expressions inside an alternative. -/
def alternativeSubnodes : Option (Alternative Node) → List Node
  | none => []
  | some ⟨_, body⟩ => body.subnodes

/-- Expressions and all expressions inside them. -/
def allSubnodes : List Node → List Node
  | [] => []
  | node :: more => node.subnodes ++ allSubnodes more

end

/-- Expressions in a row contribute what is inside them. -/
theorem allSubnodes_eq_flatMap (nodes : List Node) :
    allSubnodes nodes = nodes.flatMap subnodes := by
  induction nodes with
  | nil => rfl
  | cons node more ih =>
    rw [List.flatMap_cons, ← ih]
    rfl

/-- Branches contribute what is inside their bodies. -/
theorem branchSubnodes_eq_flatMap (branches : List (Branch Node)) :
    branchSubnodes branches = branches.flatMap fun branch => branch.body.subnodes := by
  induction branches with
  | nil => rfl
  | cons branch more ih =>
    rw [List.flatMap_cons, ← ih]
    rfl

/-- An alternative contributes what is inside its body. -/
theorem alternativeSubnodes_eq_elim (otherwise : Option (Alternative Node)) :
    alternativeSubnodes otherwise =
      otherwise.elim [] fun alternative => alternative.body.subnodes := by
  cases otherwise <;> rfl

/-- A sequence stands in front of what is inside its children. -/
theorem subnodes_concat (children : List Node) :
    (concat children).subnodes = .concat children :: children.flatMap subnodes :=
  congrArg (List.cons _) (allSubnodes_eq_flatMap children)

/-- A conditional stands in front of what is inside its branches and its alternative. -/
theorem subnodes_choice (branches : List (Branch Node)) (otherwise : Option (Alternative Node))
    (closing : Span) : (choice branches otherwise closing).subnodes =
      .choice branches otherwise closing :: (branches.flatMap (·.body.subnodes) ++
        otherwise.elim [] fun alternative => alternative.body.subnodes) := by
  rw [← branchSubnodes_eq_flatMap, ← alternativeSubnodes_eq_elim]
  rfl

/-- Whether an expression and all expressions inside it have the property. -/
def Throughout (P : Node → Prop) (node : Node) : Prop := ∀ inner ∈ node.subnodes, P inner

section Throughout

variable (P : Node → Prop)

/-- A property is kept throughout when something that follows from it is asked for. -/
theorem Throughout.imp {P Q : Node → Prop} {node : Node} (has : node.Throughout P)
    (follows : ∀ inner, P inner → Q inner) : node.Throughout Q :=
  fun inner member => follows inner (has inner member)

/-- Literal text has a property throughout when it has it itself. -/
@[simp] theorem throughout_raw (text : String) (span : Span) :
    Throughout P (.raw text span) ↔ P (.raw text span) :=
  List.forall_mem_singleton

/-- An invalid tag has a property throughout when it has it itself. -/
@[simp] theorem throughout_invalid (text : String) (span : Span) :
    Throughout P (.invalid text span) ↔ P (.invalid text span) :=
  List.forall_mem_singleton

/-- The place of a value has a property throughout when it has it itself. -/
@[simp] theorem throughout_use (path : Path) (span : Span) :
    Throughout P (.use path span) ↔ P (.use path span) :=
  List.forall_mem_singleton

/-- An unexpected token has a property throughout when it has it itself. -/
@[simp] theorem throughout_unexpected (token : Token) :
    Throughout P (.unexpected token) ↔ P (.unexpected token) :=
  List.forall_mem_singleton

/-- A loop has a property throughout when it has it and its body does throughout. -/
@[simp] theorem throughout_loop (var : Ident) (path : Path) (opening closing : Span)
    (body : Node) : Throughout P (.loop var path opening closing body) ↔
      P (.loop var path opening closing body) ∧ body.Throughout P :=
  List.forall_mem_cons

/-- A sequence has a property throughout when it has it and its children do throughout. -/
@[simp] theorem throughout_concat (children : List Node) :
    Throughout P (.concat children) ↔
      P (.concat children) ∧ ∀ child ∈ children, child.Throughout P := by
  simp only [Throughout, subnodes_concat, List.forall_mem_cons, List.forall_mem_flatMap]

/-- A conditional has a property throughout when it has it and the bodies of its branches and of
its alternative do throughout. -/
@[simp] theorem throughout_choice (branches : List (Branch Node))
    (otherwise : Option (Alternative Node)) (closing : Span) :
    Throughout P (.choice branches otherwise closing) ↔
      P (.choice branches otherwise closing) ∧
        (∀ branch ∈ branches, branch.body.Throughout P) ∧
          ∀ alternative, otherwise = some alternative → alternative.body.Throughout P := by
  simp only [Throughout, subnodes_choice, List.forall_mem_cons, List.forall_mem_append,
    List.forall_mem_flatMap]
  cases otherwise with
  | none => simp
  | some alternative => simp

end Throughout

/-- Whether an unexpected token stands somewhere in the expression. -/
def Flawed (node : Node) : Prop := ∃ token, .unexpected token ∈ node.subnodes

/-- Whether one of the expressions in a row is flawed. -/
def AnyFlawed (nodes : List Node) : Prop := ∃ node ∈ nodes, node.Flawed

/-- An empty row is not flawed. -/
@[simp] theorem not_anyFlawed_nil : ¬AnyFlawed [] := by simp [AnyFlawed]

/-- A row is flawed when its first expression is or one of the others. -/
@[simp] theorem anyFlawed_cons (node : Node) (more : List Node) :
    AnyFlawed (node :: more) ↔ node.Flawed ∨ AnyFlawed more := by
  simp [AnyFlawed]

/-- An expression is not flawed when nothing inside it is an unexpected token. -/
theorem not_flawed_iff (node : Node) :
    ¬node.Flawed ↔ node.Throughout fun inner => ∀ token, inner ≠ .unexpected token := by
  constructor
  · rintro sound inner member token rfl
    exact sound ⟨token, member⟩
  · rintro without ⟨token, member⟩
    exact without _ member token rfl

/-- Literal text is not flawed. -/
@[simp] theorem not_flawed_raw (text : String) (span : Span) : ¬Flawed (.raw text span) := by
  simp [not_flawed_iff]

/-- An invalid tag is not flawed. -/
@[simp] theorem not_flawed_invalid (text : String) (span : Span) :
    ¬Flawed (.invalid text span) := by
  simp [not_flawed_iff]

/-- The place of a value is not flawed. -/
@[simp] theorem not_flawed_use (path : Path) (span : Span) : ¬Flawed (.use path span) := by
  simp [not_flawed_iff]

/-- An unexpected token is a flaw. -/
@[simp] theorem flawed_unexpected (token : Token) : Flawed (.unexpected token) :=
  ⟨token, List.mem_singleton_self _⟩

/-- A loop is flawed when its body is. -/
@[simp] theorem flawed_loop (var : Ident) (path : Path) (opening closing : Span) (body : Node) :
    Flawed (.loop var path opening closing body) ↔ body.Flawed := by
  rw [← not_iff_not, not_flawed_iff, not_flawed_iff, throughout_loop]
  simp

/-- A sequence is flawed when one of its children is. -/
@[simp] theorem flawed_concat (children : List Node) :
    Flawed (.concat children) ↔ AnyFlawed children := by
  rw [← not_iff_not, not_flawed_iff, throughout_concat]
  simp [AnyFlawed, not_flawed_iff]

/-- A conditional is flawed when the body of a branch or of its alternative is. -/
@[simp] theorem flawed_choice (branches : List (Branch Node))
    (otherwise : Option (Alternative Node)) (closing : Span) :
    Flawed (.choice branches otherwise closing) ↔
      (∃ branch ∈ branches, branch.body.Flawed) ∨
        ∃ alternative, otherwise = some alternative ∧ alternative.body.Flawed := by
  rw [← not_iff_not, not_flawed_iff, throughout_choice]
  simp [not_flawed_iff]

/-- A run is flawed when one of its nodes is. -/
@[simp] theorem flawed_ofRun (anchor : Span) (nodes : List Node) :
    (ofRun anchor nodes).Flawed ↔ AnyFlawed nodes := by
  match nodes with
  | [] => simp [ofRun]
  | [node] => simp [ofRun]
  | _ :: _ :: _ => simp only [ofRun, flawed_concat]

end Node

end TextTemplate.Expression
