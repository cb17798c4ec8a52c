import TextTemplate.Evaluation.Render
import TextTemplate.Evaluation.Residual
import TextTemplate.Expression.Assembly
import TextTemplate.Expression.Equality
import TextTemplate.Expression.Shape

/-!
# Templates from text to text

What is done with whole templates: rendering a text under a context, and writing a text out in
canonical form, which is rendering it under the empty context.
-/

namespace TextTemplate

open Data Expression

/-- How deep constructs may nest unless something else is asked for. -/
def defaultNesting : Int := 64

/-- The text of a template under a context. -/
def renderText (limit : Int) (text : String) (context : Context) : String :=
  (parse limit text).render context

/-- A text written out again with nothing known. -/
def writtenOut (limit : Int) (text : String) : String := renderText limit text .empty

/-- Whether two texts have trees of one shape. -/
def sameShape (limit : Int) (text other : String) : Bool :=
  (parse limit text).shape = (parse limit other).shape

end TextTemplate
