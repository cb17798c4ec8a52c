import TextTemplate.Expression.Assembly
import TextTemplate.Log.Record
import TextTemplate.Markup.Description

/-!
# The log of the assembly

Every notice on a template is a record. Only templates nested too deep are worth a warning.
-/

namespace TextTemplate.Log

open Expression Markup Text

/-- How grave a notice is. -/
def noticeLevel : Notice → Level
  | .tooDeep _ _ => .warning
  | .unexpected _ | .unclosedLoop _ _ | .unclosedChoice _ _ => .debug

/-- What a notice says. -/
def noticeMessage : Notice → String
  | .unexpected token => "Unexpected " ++ describeToken token
  | .tooDeep limit opener =>
    "Template nesting exceeds " ++ toString limit ++ " levels at line "
      ++ toString opener.span.start.line ++ "; not parsing " ++ quoted opener.canonical
  | .unclosedLoop start closer =>
    "For loop at " ++ describePos start ++ " closed by " ++ describeToken closer
  | .unclosedChoice start closer =>
    "If block at " ++ describePos start ++ " closed by " ++ describeToken closer

/-- Whether a notice is given before the next token is read; the others come after it. -/
def comesFirst : Notice → Bool
  | .unexpected _ | .tooDeep _ _ => true
  | .unclosedLoop _ _ | .unclosedChoice _ _ => false

/-- The record of a notice. -/
def noticeRecord (notice : Notice) : Record := ⟨.tree, noticeLevel notice, noticeMessage notice⟩

/-- The warnings among notices. -/
def warnings (notices : List Notice) : List String :=
  (notices.filter (noticeLevel · = .warning)).map noticeMessage

end TextTemplate.Log
