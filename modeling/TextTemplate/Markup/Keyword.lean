/-!
# Keywords of statement tags

The words that may open a statement tag, and the one word inside a loop head.
-/

namespace TextTemplate.Markup

/-- The seven keywords. -/
inductive Keyword where
  /-- Opens a loop. -/
  | loop
  /-- Stands between the loop variable and the path. -/
  | within
  /-- Ends a loop. -/
  | endLoop
  /-- Opens a conditional. -/
  | condition
  /-- Opens a further branch. -/
  | elseCondition
  /-- Opens the branch for all other cases. -/
  | otherwise
  /-- Ends a conditional. -/
  | endCondition
  deriving DecidableEq

/-- How a keyword is written. -/
def Keyword.spelling : Keyword → String
  | .loop => "for"
  | .within => "in"
  | .endLoop => "endfor"
  | .condition => "if"
  | .elseCondition => "elif"
  | .otherwise => "else"
  | .endCondition => "endif"

/-- All keywords. -/
def Keyword.all : List Keyword :=
  [.loop, .within, .endLoop, .condition, .elseCondition, .otherwise, .endCondition]

/-- The keyword that is written as `word`, if there is one. -/
def Keyword.ofSpelling? (word : String) : Option Keyword :=
  Keyword.all.find? fun keyword => keyword.spelling == word

/-- A word is read as a keyword exactly when it is how the keyword is written. -/
theorem Keyword.ofSpelling?_eq_some_iff {word : String} {keyword : Keyword} :
    ofSpelling? word = some keyword ↔ word = keyword.spelling := by
  constructor
  · intro found
    rw [ofSpelling?] at found
    have same := List.find?_some found
    simp only [beq_iff_eq] at same
    exact same.symm
  · rintro rfl
    cases keyword <;> decide

end TextTemplate.Markup
