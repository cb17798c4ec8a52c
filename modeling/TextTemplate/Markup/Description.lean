import TextTemplate.Markup.Token
import TextTemplate.Text.Quoted

/-!
# Tokens described in messages

Log messages describe a token as a record: its kind, and all of its fields in order with their
names, down to the positions.
-/

namespace TextTemplate.Markup

open Text

/-- A record written out: its name and its named fields. -/
def describeRecord (name : String) (fields : List (String × String)) : String :=
  name ++ "(" ++ ", ".intercalate (fields.map fun field => field.1 ++ "=" ++ field.2) ++ ")"

/-- A row of texts in parentheses; a comma follows a single one. -/
def describeRow : List String → String
  | [text] => "(" ++ quoted text ++ ",)"
  | texts => "(" ++ ", ".intercalate (texts.map quoted) ++ ")"

/-- A position with all of its counts. -/
def describePos (pos : Pos) : String :=
  describeRecord "Pos" [("offset", toString pos.offset), ("lineno", toString pos.line),
    ("col_offset", toString pos.column)]

/-- A span with its text and both of its ends. -/
def describeSpan (span : Span) : String :=
  describeRecord "Span" [("raw", quoted span.raw), ("start", describePos span.start),
    ("end", describePos span.stop)]

/-- A name and its place. -/
def describeIdent (ident : Ident) : String :=
  describeRecord "Id" [("name", quoted ident.text), ("span", describeSpan ident.span)]

/-- The names of a path and its place. -/
def describePath (path : Path) : String :=
  describeRecord "LongId" [("parts", describeRow path.parts), ("span", describeSpan path.span)]

/-- The fields of a lexeme, without the place of the token. -/
def describeFields : Lexeme → List (String × String)
  | .raw text => [("text", quoted text)]
  | .invalid text => [("raw_text", quoted text)]
  | .use path | .ifStart path | .elifTag path => [("path", describePath path)]
  | .forStart var path => [("var_name", describeIdent var), ("path", describePath path)]
  | .endOfText | .forEnd | .elseTag | .ifEnd => []

/-- A token with all of its fields, its place last. -/
def describeToken (token : Token) : String :=
  describeRecord token.kind.name
    (describeFields token.lexeme ++ [("span", describeSpan token.span)])

end TextTemplate.Markup
