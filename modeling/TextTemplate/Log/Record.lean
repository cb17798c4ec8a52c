/-!
# Log records

A record is a line of the log: where it comes from, how grave it is, and what it says.
-/

namespace TextTemplate.Log

/-- Where a record comes from. -/
inductive Channel where
  /-- Reading tokens. -/
  | tokens
  /-- Assembling the tree. -/
  | tree
  /-- Working on whole templates. -/
  | template
  deriving DecidableEq

/-- The name of a channel. -/
def Channel.name : Channel → String
  | .tokens => "simplerjinja.scanner"
  | .tree => "simplerjinja.parser"
  | .template => "simplerjinja.engine"

/-- How grave a record is. -/
inductive Level where
  | debug | warning
  deriving DecidableEq

/-- The name of a level. -/
def Level.name : Level → String
  | .debug => "DEBUG"
  | .warning => "WARNING"

/-- A line of the log. -/
structure Record where
  /-- Where the record comes from. -/
  channel : Channel
  /-- How grave it is. -/
  level : Level
  /-- What it says. -/
  message : String
  deriving DecidableEq

end TextTemplate.Log
