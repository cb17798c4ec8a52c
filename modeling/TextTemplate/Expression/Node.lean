import TextTemplate.Markup.Token

/-!
# Expression trees

A template is a tree of expressions: literal text, values to fill in, loops, conditionals and
sequences of these. A tag that found no place in a construct stays in the tree as an unexpected
token. Loops and conditionals keep the spans of their tags; the tags themselves follow from the
parts of the construct, so a conditional is always opened by an if tag and continued by elif tags.
Trees that hold the tokens they were read from are told apart from these. That both are the same,
from the parse through every evaluation, is proved and not taken for granted.
-/

namespace TextTemplate.Expression

open Text Markup

/-- One condition of a conditional and what depends on it. -/
structure Branch (β : Type) where
  /-- Where the condition is looked up. -/
  path : Path
  /-- Where the tag of the branch stands. -/
  span : Span
  /-- What the branch holds. -/
  body : β
  deriving DecidableEq

/-- What a conditional holds for the case that no condition does. -/
structure Alternative (β : Type) where
  /-- Where the tag stands. -/
  span : Span
  /-- What the alternative holds. -/
  body : β
  deriving DecidableEq

/-- The branch with its body changed. -/
def Branch.map {β γ : Type} (f : β → γ) (branch : Branch β) : Branch γ :=
  ⟨branch.path, branch.span, f branch.body⟩

/-- The alternative with its body changed. -/
def Alternative.map {β γ : Type} (f : β → γ) (alternative : Alternative β) : Alternative γ :=
  ⟨alternative.span, f alternative.body⟩

/-- An expression of a template. -/
inductive Node where
  /-- Literal text. -/
  | raw (text : String) (span : Span)
  /-- A statement tag that could not be read. -/
  | invalid (text : String) (span : Span)
  /-- The place of a value. -/
  | use (path : Path) (span : Span)
  /-- A token that no construct could use. -/
  | unexpected (token : Token)
  /-- A loop over the items found at `path`, between its two tags. -/
  | loop (var : Ident) (path : Path) (opening closing : Span) (body : Node)
  /-- A conditional, up to its last tag. -/
  | choice (branches : List (Branch Node)) (otherwise : Option (Alternative Node))
      (closing : Span)
  /-- Expressions one after the other. -/
  | concat (children : List Node)

/-- The kinds of expressions. -/
inductive NodeKind where
  | raw | invalid | use | unexpected | loop | choice | concat
  deriving DecidableEq

/-- The name by which a kind of expression is shown. -/
def NodeKind.name : NodeKind → String
  | .raw => "Raw"
  | .invalid => "InvalidExpr"
  | .use => "Use"
  | .unexpected => "UnexpectedToken"
  | .loop => "For"
  | .choice => "If"
  | .concat => "Concat"

/-- The tags that open the branches of a conditional: an if tag for the first one, elif tags for
the others. -/
def branchTags {β : Type} : List (Branch β) → List Token
  | [] => []
  | first :: more =>
    ⟨.ifStart first.path, first.span⟩ :: more.map fun branch => ⟨.elifTag branch.path, branch.span⟩

/-- All tags of a conditional in order. -/
def choiceTags {β : Type} (branches : List (Branch β)) (otherwise : Option (Alternative β))
    (closing : Span) : List Token :=
  branchTags branches ++ (otherwise.map fun alternative => ⟨.elseTag, alternative.span⟩).toList
    ++ [⟨.ifEnd, closing⟩]

namespace Node

/-- Proves a property of all expressions from the expressions inside. -/
@[elab_as_elim]
theorem inductionOn {motive : Node → Prop} (node : Node)
    (raw : ∀ text span, motive (.raw text span))
    (invalid : ∀ text span, motive (.invalid text span))
    (use : ∀ path span, motive (.use path span))
    (unexpected : ∀ token, motive (.unexpected token))
    (loop : ∀ var path opening closing body, motive body →
      motive (.loop var path opening closing body))
    (choice : ∀ branches otherwise closing,
      (∀ branch ∈ branches, motive branch.body) →
      (∀ alternative, otherwise = some alternative → motive alternative.body) →
      motive (.choice branches otherwise closing))
    (concat : ∀ children, (∀ child ∈ children, motive child) → motive (.concat children)) :
    motive node :=
  @Node.rec motive
    (fun branches => ∀ branch ∈ branches, motive branch.body)
    (fun otherwise => ∀ alternative, otherwise = some alternative → motive alternative.body)
    (fun children => ∀ child ∈ children, motive child)
    (fun branch => motive branch.body)
    (fun alternative => motive alternative.body)
    raw invalid use unexpected loop choice concat
    (fun _ h => absurd h List.not_mem_nil)
    (fun _ _ first more branch member =>
      (List.mem_cons.mp member).elim (fun same => same ▸ first) (more branch))
    (fun _ h => nomatch h)
    (fun _ body _ same => Option.some.inj same ▸ body)
    (fun _ h => absurd h List.not_mem_nil)
    (fun _ _ first more child member =>
      (List.mem_cons.mp member).elim (fun same => same ▸ first) (more child))
    (fun _ _ _ body => body)
    (fun _ _ body => body)
    node

/-- The kind of an expression. -/
def kind : Node → NodeKind
  | .raw _ _ => .raw
  | .invalid _ _ => .invalid
  | .use _ _ => .use
  | .unexpected _ => .unexpected
  | .loop _ _ _ _ _ => .loop
  | .choice _ _ _ => .choice
  | .concat _ => .concat

mutual

/-- Whether the value of an expression hangs on no context. -/
def isFree : Node → Bool
  | .raw _ _ | .invalid _ _ | .unexpected _ => true
  | .use _ _ | .loop _ _ _ _ _ | .choice _ _ _ => false
  | .concat children => areFree children

/-- Whether the values of all expressions hang on no context. -/
def areFree : List Node → Bool
  | [] => true
  | node :: more => node.isFree && areFree more

end

/-- A sequence hangs on no context when none of its children does. -/
theorem areFree_eq_all (nodes : List Node) : areFree nodes = nodes.all isFree := by
  induction nodes with
  | nil => rfl
  | cons node more ih => simp [areFree, ih]

/-- Several expressions in a sequence, a single one as it is, and none as empty text at
`anchor`. -/
def ofRun (anchor : Span) : List Node → Node
  | [] => .raw "" anchor
  | [node] => node
  | nodes => .concat nodes

/-- Several expressions in a sequence, a single one as it is; none are refused. -/
def join : List Node → Except Misuse Node
  | [] => .error .emptyConcat
  | [node] => .ok node
  | nodes => .ok (.concat nodes)

/-- Wherever there is something to join, the anchor of a run does not matter. -/
theorem join_eq_ofRun {nodes : List Node} (nonempty : nodes ≠ []) (anchor : Span) :
    join nodes = .ok (ofRun anchor nodes) := by
  match nodes with
  | [] => exact absurd rfl nonempty
  | [_] => rfl
  | _ :: _ :: _ => rfl

/-- All tags of a conditional in order, absent for any other expression. -/
def tags? : Node → Option (List Token)
  | .choice branches otherwise closing => some (choiceTags branches otherwise closing)
  | _ => none

/-- The conditional that is left once the first `index` conditions are known to fail. The branch
that comes first now is opened by an if tag in its old place, because first branches are. Absent for
any other expression. -/
def fromBranch? (index : Nat) : Node → Option (Except Misuse Node)
  | .choice branches otherwise closing =>
    some (if index = 0 ∨ index < branches.length then
      .ok (.choice (branches.drop index) otherwise closing)
    else .error .indexOutOfRange)
  | _ => none

/-- The part of an expression at an index: a child of a sequence, the body of a branch, or the
body of a loop whatever the index. Absent for an expression without parts. -/
def part? (index : Nat) : Node → Option (Except Misuse Node)
  | .concat children => some (children[index]?.elim (.error .indexOutOfRange) .ok)
  | .choice branches _ _ =>
    some (branches[index]?.elim (.error .indexOutOfRange) fun branch => .ok branch.body)
  | .loop _ _ _ _ body => some (.ok body)
  | _ => none

/-- What a conditional holds for the case that no condition does. -/
def alternative? : Node → Option Node
  | .choice _ otherwise _ => otherwise.map (·.body)
  | _ => none

end Node

end TextTemplate.Expression
