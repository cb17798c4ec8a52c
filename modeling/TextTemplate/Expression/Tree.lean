import TextTemplate.Expression.Shape
import TextTemplate.Fault

/-!
# Expression trees that keep their tags

Here every expression holds the tokens it was read from: a leaf its one token, a loop both of its
tags beside the name and the path it goes by, and a conditional the tag in front of each branch and
the one behind the last. Nothing is said about which tokens these are, so whatever asks a token for
something that tokens of its kind do not hold fails.

Once the first branches of a conditional are dropped, the branch that comes first gets a tag of its
own: an if tag with the path and the place of the tag it had. All other tags stay.
-/

namespace TextTemplate

open Markup Text

namespace Markup.Token

/-- The path that a token holds. -/
def tryPath (token : Token) : Except Fault Path :=
  match token.lexeme.path? with
  | some path => return path
  | none => throw (.noField token.kind)

/-- The literal text that a token holds. -/
def tryText (token : Token) : Except Fault String :=
  match token.lexeme with
  | .raw text => return text
  | _ => throw (.noField token.kind)

/-- The text of an unreadable tag that a token holds. -/
def tryInvalidText (token : Token) : Except Fault String :=
  match token.lexeme with
  | .invalid text => return text
  | _ => throw (.noField token.kind)

end Markup.Token

namespace Expression

/-- A tag and what stands behind it. -/
structure Tagged (β : Type) where
  /-- The tag. -/
  token : Token
  /-- What stands behind it. -/
  body : β
  deriving DecidableEq

/-- The same tag in front of something else. -/
def Tagged.map {β γ : Type} (f : β → γ) (tagged : Tagged β) : Tagged γ :=
  ⟨tagged.token, f tagged.body⟩

/-- The tags of a conditional, with what stands behind each of them but the last. -/
structure Conditional (β : Type) where
  /-- The branches in order. -/
  branches : List (Tagged β)
  /-- The branch for the case that no condition holds. -/
  otherwise : Option (Tagged β)
  /-- The last tag. -/
  closer : Token
  deriving DecidableEq

namespace Conditional

variable {β γ : Type}

/-- The same tags with other things behind them. -/
def map (f : β → γ) (conditional : Conditional β) : Conditional γ :=
  ⟨conditional.branches.map (·.map f), conditional.otherwise.map (·.map f), conditional.closer⟩

/-- All tags in order. -/
def tags (conditional : Conditional β) : List Token :=
  conditional.branches.map (·.token) ++ (conditional.otherwise.map (·.token)).toList
    ++ [conditional.closer]

/-- What stands behind the tags, in order. -/
def bodies (conditional : Conditional β) : List β :=
  conditional.branches.map (·.body) ++ (conditional.otherwise.map (·.body)).toList

/-- The conditional that is left once the first `index` conditions are known to fail. Its first
branch is tagged anew. -/
def fromBranch (index : Nat) (conditional : Conditional β) : Except Fault (Conditional β) :=
  if index = 0 then return conditional
  else
    match conditional.branches[index]? with
    | none => throw (.misuse .indexOutOfRange)
    | some first => do
      let path ← first.token.tryPath
      let opener : Token := ⟨.ifStart path, first.token.span⟩
      return { conditional with
        branches := ⟨opener, first.body⟩ :: conditional.branches.drop (index + 1) }

end Conditional

/-- An expression of a template, with its tokens. -/
inductive Tree where
  /-- Literal text. -/
  | raw (token : Token)
  /-- A statement tag that could not be read. -/
  | invalid (token : Token)
  /-- The place of a value. -/
  | use (token : Token)
  /-- A token that no construct could use. -/
  | unexpected (token : Token)
  /-- A loop over the items found at `path`, between its two tags. -/
  | loop (var : Ident) (path : Path) (opener closer : Token) (body : Tree)
  /-- A conditional, up to its last tag. -/
  | choice (branches : List (Tagged Tree)) (otherwise : Option (Tagged Tree)) (closer : Token)
  /-- Expressions one after the other. -/
  | concat (children : List Tree)

namespace Tree

/-- A conditional as an expression. -/
def ofConditional (conditional : Conditional Tree) : Tree :=
  .choice conditional.branches conditional.otherwise conditional.closer

/-- The kind of an expression. -/
def kind : Tree → NodeKind
  | .raw _ => .raw
  | .invalid _ => .invalid
  | .use _ => .use
  | .unexpected _ => .unexpected
  | .loop _ _ _ _ _ => .loop
  | .choice _ _ _ => .choice
  | .concat _ => .concat

/-- The expression of a token that stands for itself, absent for a tag of a construct. -/
def leaf? (token : Token) : Option Tree :=
  match token.lexeme with
  | .raw _ => some (.raw token)
  | .invalid _ => some (.invalid token)
  | .use _ => some (.use token)
  | _ => none

/-- Empty text at a place. -/
def empty (anchor : Span) : Tree := .raw ⟨.raw "", anchor⟩

/-- Several expressions in a sequence, a single one as it is; none are refused. -/
def join : List Tree → Except Fault Tree
  | [] => throw (.misuse .emptyConcat)
  | [tree] => return tree
  | trees => return .concat trees

/-- The body of a construct as one expression; an empty one sits behind the opening tag. -/
def bodyBehind (opener : Token) (body : List Tree) : Except Fault Tree :=
  if body.isEmpty then return .empty (.empty opener.span.stop) else join body

mutual

/-- Whether the value of an expression hangs on no context. -/
def isFree : Tree → Bool
  | .raw _ | .invalid _ | .unexpected _ => true
  | .use _ | .loop _ _ _ _ _ | .choice _ _ _ => false
  | .concat children => areFree children

/-- Whether the values of all expressions hang on no context. -/
def areFree : List Tree → Bool
  | [] => true
  | tree :: more => tree.isFree && areFree more

end

mutual

/-- The shape of an expression: what is left of it without its places and tags. -/
def shape : Tree → Except Fault Shape
  | .raw token => do return .node (.raw (← token.tryText)) []
  | .invalid token => do return .node (.invalid (← token.tryInvalidText)) []
  | .use token => do return .node (.use (← token.tryPath).parts) []
  | .unexpected token => return .node (.unexpected token.kind token.canonical) []
  | .loop var path _ _ body => do return .node (.loop var.text path.parts) [← body.shape]
  | .choice branches otherwise _ => do
    let conditions ← branches.mapM fun branch => return (← branch.token.tryPath).parts
    let bodies ← branchShapes branches
    let last ← lastShape otherwise
    return .node (.choice conditions otherwise.isSome) (bodies ++ last)
  | .concat children => do return .node .concat (← shapes children)

/-- The shapes of the bodies of branches. -/
def branchShapes : List (Tagged Tree) → Except Fault (List Shape)
  | [] => return []
  | ⟨_, body⟩ :: more => do return (← body.shape) :: (← branchShapes more)

/-- The shape of an alternative, if there is one. -/
def lastShape : Option (Tagged Tree) → Except Fault (List Shape)
  | none => return []
  | some ⟨_, body⟩ => do return [← body.shape]

/-- The shapes of expressions. -/
def shapes : List Tree → Except Fault (List Shape)
  | [] => return []
  | tree :: more => do return (← tree.shape) :: (← shapes more)

end

/-- All tags of a conditional in order, absent for any other expression. -/
def tags? : Tree → Option (List Token)
  | .choice branches otherwise closer => some (Conditional.tags ⟨branches, otherwise, closer⟩)
  | _ => none

/-- The conditional that is left once the first `index` conditions are known to fail. Absent for any
other expression. -/
def fromBranch? (index : Nat) : Tree → Option (Except Fault Tree)
  | .choice branches otherwise closer =>
    some ((Conditional.fromBranch index ⟨branches, otherwise, closer⟩).map ofConditional)
  | _ => none

/-- The part of an expression at an index: a child of a sequence, the body of a branch, or the
body of a loop whatever the index. Absent for an expression without parts. -/
def part? (index : Nat) : Tree → Option (Except Fault Tree)
  | .concat children => some (children[index]?.elim (throw (.misuse .indexOutOfRange)) pure)
  | .choice branches _ _ =>
    some (branches[index]?.elim (throw (.misuse .indexOutOfRange)) fun branch => pure branch.body)
  | .loop _ _ _ _ body => some (.ok body)
  | _ => none

/-- What a conditional holds for the case that no condition does. -/
def alternative? : Tree → Option Tree
  | .choice _ otherwise _ => otherwise.map (·.body)
  | _ => none

end Tree

end Expression

end TextTemplate
