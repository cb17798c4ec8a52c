import TextTemplate.Evaluation.Render
import TextTemplate.Evaluation.Residual

/-!
# Evaluating parts of a template

Only expressions can be evaluated. A part of a template that is no expression, such as a branch on
its own, is refused by both evaluations, whatever the context.
-/

namespace TextTemplate.Evaluation

open Data Expression

/-- A part of a template. -/
inductive Part where
  /-- An expression. -/
  | expression (node : Node)
  /-- Something that is no expression. -/
  | fragment (kind : Fragment)

/-- The expression that a part is. -/
def Part.expression? : Part → Except Misuse Node
  | .expression node => .ok node
  | .fragment kind => .error (.notEvaluable kind)

/-- The text of a part. -/
def Part.render (part : Part) (context : Context) : Except Misuse String :=
  part.expression?.map (·.render context)

/-- What is left of a part. -/
def Part.residual (part : Part) (context : Context) : Except Misuse Node :=
  part.expression?.map (·.residual context)

end TextTemplate.Evaluation
