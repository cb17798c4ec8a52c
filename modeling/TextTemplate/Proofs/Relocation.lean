import TextTemplate.Markup.Token

/-!
# Tokens moved to other places

The same characters read at another place of a text, or in another text, give the same token but
for its place. Here the places of a token are changed all at once: a position keeps its distance to
a base, a span keeps what it covers, and a token keeps what it says.
-/

namespace TextTemplate.Text

/-- The place as far behind `base'` as `pos` is behind `base`. -/
def Pos.rebased (base base' pos : Pos) : Pos where
  offset := pos.offset - base.offset + base'.offset
  line := pos.line - base.line + base'.line
  column := if pos.line = base.line then pos.column - base.column + base'.column else pos.column

/-- What is reached from the one base by reading is reached from the other by reading the same. -/
theorem Pos.rebased_after (base base' : Pos) (passed : List Char) :
    rebased base base' (base.after passed) = base'.after passed := by
  have line : (base.after passed).line = base.line ↔ '\n' ∉ passed := by
    simp [after, List.count_eq_zero]
  simp only [rebased, line]
  simp only [after, mk.injEq]
  refine ⟨by omega, by omega, ?_⟩
  by_cases newline : '\n' ∈ passed
  · rw [if_neg (not_not_intro newline), if_pos newline, if_pos newline]
  · rw [if_pos newline, if_neg newline, if_neg newline]
    omega

/-- The span with both of its places changed. -/
def Span.mapPlaces (move : Pos → Pos) (span : Span) : Span :=
  ⟨span.raw, move span.start, move span.stop⟩

end TextTemplate.Text

namespace TextTemplate.Markup

open Text

variable (f g : Span → Span)

/-- The name with its span changed. -/
def Ident.mapSpan (ident : Ident) : Ident := ⟨ident.text, f ident.span⟩

/-- The path with its span changed. -/
def Path.mapSpan (path : Path) : Path := ⟨path.root, path.steps, f path.span⟩

/-- The lexeme with the spans of its names changed. -/
def Lexeme.mapSpans : Lexeme → Lexeme
  | .endOfText => .endOfText
  | .raw text => .raw text
  | .invalid text => .invalid text
  | .use path => .use (path.mapSpan f)
  | .forStart var path => .forStart (var.mapSpan f) (path.mapSpan f)
  | .forEnd => .forEnd
  | .ifStart path => .ifStart (path.mapSpan f)
  | .elifTag path => .elifTag (path.mapSpan f)
  | .elseTag => .elseTag
  | .ifEnd => .ifEnd

/-- The token with all of its spans changed. -/
def Token.mapSpans (token : Token) : Token := ⟨token.lexeme.mapSpans f, f token.span⟩

/-- A path keeps its names wherever it stands. -/
@[simp] theorem Path.parts_mapSpan (path : Path) : (path.mapSpan f).parts = path.parts := rfl

/-- A lexeme keeps its kind wherever its names stand. -/
@[simp] theorem Lexeme.kind_mapSpans (lexeme : Lexeme) :
    (lexeme.mapSpans f).kind = lexeme.kind := by
  cases lexeme <;> rfl

/-- A lexeme is written alike wherever its names stand. -/
@[simp] theorem Lexeme.canonical_mapSpans (lexeme : Lexeme) :
    (lexeme.mapSpans f).canonical = lexeme.canonical := by
  cases lexeme <;> rfl

/-- Changing spans twice is changing them once. -/
theorem Lexeme.mapSpans_mapSpans (lexeme : Lexeme) :
    (lexeme.mapSpans f).mapSpans g = lexeme.mapSpans (g ∘ f) := by
  cases lexeme <;> rfl

/-- The end of the text stays the end of the text, and nothing else becomes it. -/
theorem Lexeme.mapSpans_eq_endOfText (lexeme : Lexeme) :
    lexeme.mapSpans f = .endOfText ↔ lexeme = .endOfText := by
  cases lexeme <;> simp [mapSpans]

/-- What a lexeme says, with the places of its names forgotten. -/
def Lexeme.bare (lexeme : Lexeme) : Lexeme := lexeme.mapSpans fun _ => .empty .start

/-- Places that are forgotten may be changed before. -/
@[simp] theorem Lexeme.bare_mapSpans (lexeme : Lexeme) :
    (lexeme.mapSpans f).bare = lexeme.bare :=
  lexeme.mapSpans_mapSpans f _

/-- What a lexeme says is enough to write it. -/
@[simp] theorem Lexeme.canonical_bare (lexeme : Lexeme) :
    lexeme.bare.canonical = lexeme.canonical :=
  lexeme.canonical_mapSpans _

end TextTemplate.Markup
