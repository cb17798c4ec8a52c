import TextTemplate.Evaluation.Residual
import TextTemplate.Log.Notices
import TextTemplate.Log.Readers

/-!
# The log of a parse

Reading runs one token ahead of the assembly. The log starts with the first token; for every token
that is assembled there follow the notices given before the next token is read, the next token,
and the notices given after it. The end of the text is read once.
-/

namespace TextTemplate.Log

open Data Expression Markup

/-- The records of assembling tokens that were read, without those of reading the first one. -/
def assemblyRecords (limit : Int) : State → List (Reading Token) → List Record
  | _, [] => []
  | state, reading :: more =>
    let notices := state.notices limit reading.value
    (notices.filter comesFirst).map noticeRecord
      ++ more.head?.elim [] readingRecords
      ++ (notices.filter (!comesFirst ·)).map noticeRecord
      ++ assemblyRecords limit (state.step limit reading.value) more

/-- The records of parsing a text. -/
def parseRecords (limit : Int) (text : String) : List Record :=
  (readings text).head?.elim [] readingRecords
    ++ assemblyRecords limit .initial (readings text)
    ++ [⟨.template, .debug,
        "Parsed " ++ toString text.length ++ " characters of template into "
          ++ (parse limit text).kind.name⟩]

/-- The record of taking what is left of an expression. -/
def residualRecord (node : Node) (context : Context) : Record :=
  ⟨.template, .debug,
    "Partial render of " ++ node.kind.name ++ " left " ++ (node.residual context).kind.name⟩

end TextTemplate.Log
