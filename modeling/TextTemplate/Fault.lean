import TextTemplate.Expression.Node

/-!
# Faults

Templates are never rejected, and no data is wrong for them. What could go wrong all the same is
kept in one place here: everything that a reader, the assembly or an evaluation relies on and that
is checked, rather than taken for granted, where they are written with their checks.
-/

namespace TextTemplate

/-- Why reading, assembling or evaluating could be refused. -/
inductive Fault where
  /-- A request that cannot be answered. -/
  | misuse (misuse : Misuse)
  /-- A token of a kind that never stands for itself was to be turned into an expression. -/
  | noLeaf (kind : Markup.TokenKind)
  /-- A token was asked for something that tokens of its kind do not hold. -/
  | noField (kind : Markup.TokenKind)
  /-- An expression of a kind that the evaluation has no method for. -/
  | unhandled (kind : Expression.NodeKind)
  /-- A method was given an expression without the parts it asks for. -/
  | noSuchPart (kind : Expression.NodeKind)
  /-- A condition was tested that the context does not know. -/
  | unknownCondition
  /-- More rounds or calls were needed than there are. -/
  | unfinished

/-- What was not refused is handed on. -/
@[simp] theorem Fault.ok_bind {α β : Type} (value : α) (next : α → Except Fault β) :
    (Except.ok value >>= next) = next value := rfl

end TextTemplate
