/-!
# Misuse of the library

Templates are never rejected: malformed markup becomes literal text or an unexpected tag. The
errors here have another cause, a request that no template leads to, such as a span that ends
before it starts. Errors of data conversion are separate and stand with the conversion.
-/

namespace TextTemplate

/-- The parts of a template that have a place in a tree but are no expressions of their own. -/
inductive Fragment where
  /-- One branch of a conditional. -/
  | branch
  /-- The token that ends a template. -/
  | endOfText
  /-- One name, as in a loop header. -/
  | name
  /-- A stretch of the text. -/
  | span
  deriving DecidableEq

/-- The type name under which a fragment is reported. -/
def Fragment.typeName : Fragment → String
  | .branch => "simplerjinja.nodes.Branch"
  | .endOfText => "simplerjinja.tokens.EOF"
  | .name => "simplerjinja.tokens.Id"
  | .span => "simplerjinja.cursor.Span"

/-- A request that cannot be answered. -/
inductive Misuse where
  /-- A capture was asked for from a place that lies ahead of the cursor. -/
  | captureAhead
  /-- A path was built from no names. -/
  | emptyPath
  /-- No expressions were to be joined into one. -/
  | emptyConcat
  /-- A conditional has no branch, or a sequence no child, at the index asked for. -/
  | indexOutOfRange
  /-- Something that is no expression was to be evaluated. -/
  | notEvaluable (fragment : Fragment)
  deriving DecidableEq

/-- The text that reports a misuse. -/
def Misuse.message : Misuse → String
  | .captureAhead => "Capture from the future?"
  | .emptyPath => "A dotted path needs at least one part."
  | .emptyConcat => "concat() of no expressions"
  | .indexOutOfRange => "tuple index out of range"
  | .notEvaluable fragment =>
    "Evaluation for type <class '" ++ fragment.typeName ++ "'> not implemented."

end TextTemplate
