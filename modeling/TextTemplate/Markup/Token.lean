import TextTemplate.Misuse
import TextTemplate.Text.Position

/-!
# Tokens of the template language

A template is a row of tokens: tags, stretches of literal text, and tags that could not be read.
Every token keeps the span it was read from and can be written out again in canonical form, the
same for all tags of one kind with the same names, whatever blanks were between their parts.
-/

namespace TextTemplate.Markup

open Text

/-- A name together with the place where it stands. -/
structure Ident where
  /-- The characters of the name. -/
  text : String
  /-- Where the name was read. -/
  span : Span
  deriving DecidableEq

/-- A dotted path of at least one name, such as `user.address.city`. -/
structure Path where
  /-- The name looked up in the context. -/
  root : String
  /-- The names followed from there. -/
  steps : List String
  /-- Where the path was read. -/
  span : Span
  deriving DecidableEq

/-- All names of a path in order. -/
def Path.parts (path : Path) : List String := path.root :: path.steps

/-- The path of the given names, refused where there are none. -/
def Path.ofParts (parts : List String) (span : Span) : Except Misuse Path :=
  match parts with
  | [] => .error .emptyPath
  | root :: steps => .ok ⟨root, steps, span⟩

/-- The names of a path with a dot between each two. -/
def Path.dotted (path : Path) : String := ".".intercalate path.parts

/-- What a token says, its place left out. -/
inductive Lexeme where
  /-- The end of the template. -/
  | endOfText
  /-- Literal text. -/
  | raw (text : String)
  /-- A statement tag that could not be read, kept as it stands. -/
  | invalid (text : String)
  /-- The place of a value. -/
  | use (path : Path)
  /-- The head of a loop, binding `var` to each item found at `path`. -/
  | forStart (var : Ident) (path : Path)
  /-- The end of a loop. -/
  | forEnd
  /-- The head of a conditional. -/
  | ifStart (path : Path)
  /-- A further branch of a conditional. -/
  | elifTag (path : Path)
  /-- The branch taken when no condition holds. -/
  | elseTag
  /-- The end of a conditional. -/
  | ifEnd
  deriving DecidableEq

/-- A lexeme together with the place where it stands. -/
structure Token where
  /-- What the token says. -/
  lexeme : Lexeme
  /-- Where the token was read. -/
  span : Span
  deriving DecidableEq

/-- The kinds of tokens. -/
inductive TokenKind where
  | endOfText | raw | invalid | use | forStart | forEnd | ifStart | elifTag | elseTag | ifEnd
  deriving DecidableEq

/-- The name by which a kind of token is shown. -/
def TokenKind.name : TokenKind → String
  | .endOfText => "EOF"
  | .raw => "Raw"
  | .invalid => "InvalidExpr"
  | .use => "Use"
  | .forStart => "ForStart"
  | .forEnd => "ForEnd"
  | .ifStart => "If"
  | .elifTag => "Elif"
  | .elseTag => "Else"
  | .ifEnd => "IfEnd"

/-- The kind of a lexeme. -/
def Lexeme.kind : Lexeme → TokenKind
  | .endOfText => .endOfText
  | .raw _ => .raw
  | .invalid _ => .invalid
  | .use _ => .use
  | .forStart _ _ => .forStart
  | .forEnd => .forEnd
  | .ifStart _ => .ifStart
  | .elifTag _ => .elifTag
  | .elseTag => .elseTag
  | .ifEnd => .ifEnd

/-- Closers end a run of expressions; they belong to the construct around it. -/
def Lexeme.isCloser : Lexeme → Bool
  | .endOfText | .forEnd | .elifTag _ | .elseTag | .ifEnd => true
  | .raw _ | .invalid _ | .use _ | .forStart _ _ | .ifStart _ => false

/-- The head of a loop or of a conditional. -/
def Lexeme.isOpener : Lexeme → Bool
  | .forStart _ _ | .ifStart _ => true
  | .endOfText | .raw _ | .invalid _ | .use _ | .forEnd | .elifTag _ | .elseTag | .ifEnd => false

/-- The end of a loop or of a conditional; a tag between two branches is none. -/
def Lexeme.isEnder : Lexeme → Bool
  | .forEnd | .ifEnd => true
  | .endOfText | .raw _ | .invalid _ | .use _ | .forStart _ _ | .ifStart _ | .elifTag _
  | .elseTag => false

/-- The path that a tag mentions, if it mentions one. -/
def Lexeme.path? : Lexeme → Option Path
  | .use path | .forStart _ path | .ifStart path | .elifTag path => some path
  | .endOfText | .raw _ | .invalid _ | .forEnd | .elseTag | .ifEnd => none

/-- A statement tag around the given words. -/
def statement (words : String) : String := "\x7b% " ++ words ++ " %\x7d"

/-- An interpolation tag around the given words. -/
def interpolation (words : String) : String := "\x7b\x7b " ++ words ++ " \x7d\x7d"

/-- The canonical form of a lexeme: one blank between its parts, and literal text as it stands. -/
def Lexeme.canonical : Lexeme → String
  | .endOfText => ""
  | .raw text => text
  | .invalid text => text
  | .use path => interpolation path.dotted
  | .forStart var path => statement ("for " ++ var.text ++ " in " ++ path.dotted)
  | .forEnd => statement "endfor"
  | .ifStart path => statement ("if " ++ path.dotted)
  | .elifTag path => statement ("elif " ++ path.dotted)
  | .elseTag => statement "else"
  | .ifEnd => statement "endif"

/-- The canonical form of a token, whatever its place. -/
def Token.canonical (token : Token) : String := token.lexeme.canonical

/-- The kind of a token. -/
def Token.kind (token : Token) : TokenKind := token.lexeme.kind

end TextTemplate.Markup
