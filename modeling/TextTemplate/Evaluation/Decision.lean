import TextTemplate.Data.Value
import TextTemplate.Markup.Token

/-!
# Which branch of a conditional a context selects

The conditions of a conditional are looked up in order. The first one that holds selects its
branch; one that the context does not know leaves the conditional undecided from there on, and the
conditions before it are known to fail.
-/

namespace TextTemplate.Evaluation

open Data Markup

/-- What a context knows about a row of conditions. -/
inductive Decision where
  /-- The condition at the index is unknown, and all before it fail. -/
  | undecided (index : Nat)
  /-- The condition at the index holds, and all before it fail. -/
  | taken (index : Nat)
  /-- All conditions fail. -/
  | exhausted
  deriving DecidableEq

/-- The same decision with one more failing condition in front. -/
def Decision.next : Decision → Decision
  | .undecided index => .undecided (index + 1)
  | .taken index => .taken (index + 1)
  | .exhausted => .exhausted

/-- What a context knows about the conditions at the given paths. -/
def decision (context : Context) : List Path → Decision
  | [] => .exhausted
  | path :: more =>
    match context.resolve? path.parts with
    | none => .undecided 0
    | some value => if value.truthy then .taken 0 else (decision context more).next

end TextTemplate.Evaluation
