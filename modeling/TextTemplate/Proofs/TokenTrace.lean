import TextTemplate.Proofs.CheckedAssembly
import TextTemplate.Proofs.DescentAgreement

/-!
# The log of the readers follows the tokens

Reading a token is a single call, so its lines begin and end at the margin and all others are
indented. The count of the readers at work is back at nothing then, and the lines of the next token
start over. The descent asks for the next token from many places, and at the end of the text again
and again, but each token is read only once. What it logs itself leaves the lines of the readers as
they are: one group for each token, in the order of the tokens.
-/

namespace TextTemplate.Log

open Expression Markup Parsing Text

/-- The lines that reading a token leaves. -/
structure TokenLog (token : Token) (lines : List String) : Prop where
  /-- The first line gives the line and the column where the token starts, and its first character
  between quotes. The last one gives what fits of the description of the token. Those in between are
  indented. -/
  framed : ∃ inner, lines =
      ("[read_token] at <TemplateCursor at " ++ toString token.span.start.line ++ ":" ++
        toString token.span.start.column ++ " " ++
        quoted (.ofList (token.span.raw.toList.take 1)) ++ ">") ::
        (inner ++ ["=> " ++ .ofList ((describeToken token).toList.take 60)]) ∧
    ∀ line ∈ inner, 2 ≤ indent line
  /-- The description names the kind of the token, what it holds beside its place, and its text and
  the counts at both of its ends. -/
  described : describeToken token =
    token.kind.name ++ "(" ++
      (match token.lexeme with
        | .raw text => "text=" ++ quoted text ++ ", "
        | .invalid text => "raw_text=" ++ quoted text ++ ", "
        | .use path | .ifStart path | .elifTag path => "path=" ++ describePath path ++ ", "
        | .forStart var path => "var_name=Id(name=" ++ quoted var.text ++ ", span=" ++
            describeSpan var.span ++ "), path=" ++ describePath path ++ ", "
        | .endOfText | .forEnd | .elseTag | .ifEnd => "") ++
      "span=Span(raw=" ++ quoted token.span.raw ++
      ", start=Pos(offset=" ++ toString token.span.start.offset ++
      ", lineno=" ++ toString token.span.start.line ++
      ", col_offset=" ++ toString token.span.start.column ++
      "), end=Pos(offset=" ++ toString token.span.stop.offset ++
      ", lineno=" ++ toString token.span.stop.line ++
      ", col_offset=" ++ toString token.span.stop.column ++ ")))"
  /-- A path that the token holds is described by its names in a row and by its place. -/
  pathDescribed : ∀ path, token.lexeme.path? = some path → describePath path =
    "LongId(parts=(" ++ ", ".intercalate (path.parts.map quoted) ++
      (if path.steps = [] then ",)" else ")") ++ ", span=" ++ describeSpan path.span ++ ")"
  /-- They are the lines of calls. -/
  calls : Calls 0 lines
  /-- The starts and the returns that they note belong together in pairs. -/
  paired : Paired lines

/-- A place in a text is described by the text and by the counts at both ends. -/
theorem describeSpan_eq (span : Span) :
    describeSpan span = "Span(raw=" ++ quoted span.raw ++
      ", start=Pos(offset=" ++ toString span.start.offset ++
      ", lineno=" ++ toString span.start.line ++
      ", col_offset=" ++ toString span.start.column ++
      "), end=Pos(offset=" ++ toString span.stop.offset ++
      ", lineno=" ++ toString span.stop.line ++
      ", col_offset=" ++ toString span.stop.column ++ "))" := by
  apply String.toList_inj.mp
  simp [describeSpan, describePos, describeRecord]

/-- A path is described by its names in a row, with a comma behind a single one, and by its
place. -/
theorem describePath_eq (path : Path) :
    describePath path = "LongId(parts=(" ++ ", ".intercalate (path.parts.map quoted) ++
      (if path.steps = [] then ",)" else ")") ++ ", span=" ++ describeSpan path.span ++ ")" := by
  obtain ⟨root, steps, span⟩ := path
  apply String.toList_inj.mp
  cases steps <;> simp [describePath, describeRow, describeRecord, Path.parts]

/-- A token is described by its kind, by what it holds, and by its place. -/
theorem describeToken_eq (token : Token) :
    describeToken token = token.kind.name ++ "(" ++
      (match token.lexeme with
        | .raw text => "text=" ++ quoted text ++ ", "
        | .invalid text => "raw_text=" ++ quoted text ++ ", "
        | .use path | .ifStart path | .elifTag path => "path=" ++ describePath path ++ ", "
        | .forStart var path => "var_name=Id(name=" ++ quoted var.text ++ ", span=" ++
            describeSpan var.span ++ "), path=" ++ describePath path ++ ", "
        | .endOfText | .forEnd | .elseTag | .ifEnd => "") ++
      "span=Span(raw=" ++ quoted token.span.raw ++
      ", start=Pos(offset=" ++ toString token.span.start.offset ++
      ", lineno=" ++ toString token.span.start.line ++
      ", col_offset=" ++ toString token.span.start.column ++
      "), end=Pos(offset=" ++ toString token.span.stop.offset ++
      ", lineno=" ++ toString token.span.stop.line ++
      ", col_offset=" ++ toString token.span.stop.column ++ ")))" := by
  obtain ⟨lexeme, span⟩ := token
  apply String.toList_inj.mp
  cases lexeme <;>
    simp [describeToken, describeRecord, describeFields, describeIdent, describeSpan_eq span]

/-- A token starts with the character in front of which its reading started. -/
theorem take_raw_readToken (c : Cursor) :
    (Scan.readToken.run c).value.span.raw.toList.take 1 = c.current?.toList := by
  by_cases ended : c.rest = []
  · rw [(Scan.readToken_at_end ended).1, Cursor.since_self, Cursor.current?, ended]
    rfl
  · have covers := Scan.rest_eq_readToken ended
    have shorter := Scan.readToken_shorter ended
    cases started : (Scan.readToken.run c).value.span.raw.toList with
    | nil =>
      rw [started, List.nil_append] at covers
      rw [← covers] at shorter
      exact absurd shorter (Nat.lt_irrefl _)
    | cons first more =>
      rw [started] at covers
      rw [Cursor.current?, covers]
      rfl

/-- A character between quotes, where there is one, is the text of it between quotes. -/
theorem describePlace_eq (pos : Pos) (next : Option Char) :
    describePlace pos next =
      "<TemplateCursor at " ++ toString pos.line ++ ":" ++ toString pos.column ++ " " ++
        quoted (.ofList next.toList) ++ ">" := by
  have character : next.elim "" String.singleton = .ofList next.toList := by
    cases next with
    | none => exact String.ofList_nil.symm
    | some c => exact String.singleton_eq_ofList
  exact congrArg (fun shown => "<TemplateCursor at " ++ toString pos.line ++ ":" ++
    toString pos.column ++ " " ++ quoted shown ++ ">") character

/-- The first line of reading a token, written out. -/
theorem firstLine_eq (pos : Pos) (next : Option Char) :
    indentation 0 ++ "[" ++ readerLabel .token ++ "] at " ++ describePlace pos next =
      "[read_token] at <TemplateCursor at " ++ toString pos.line ++ ":" ++ toString pos.column ++
        " " ++ quoted (.ofList next.toList) ++ ">" := by
  have front : "[read_token] at <TemplateCursor at " =
      indentation 0 ++ "[" ++ readerLabel .token ++ "] at " ++ "<TemplateCursor at " := by decide
  simp only [describePlace_eq, front, String.append_assoc]

/-- Reading a token leaves the lines of the token. -/
theorem tokenLog_readToken (c : Cursor) :
    TokenLog (Scan.readToken.run c).value (eventMessages 0 (Scan.readToken.run c).events) where
  framed := by
    obtain ⟨inner, nested, events⟩ := Scan.events_readToken c
    have inside := calls_of_nested nested 1
    refine ⟨eventMessages 1 inner, ?_, inside.le_indent⟩
    -- The calls made while the token is read leave the count at one, its own return sets it back.
    rw [events, eventMessages, eventMessages_append nested, Scan.start_readToken,
      take_raw_readToken, firstLine_eq]
    rfl
  described := describeToken_eq (Scan.readToken.run c).value
  pathDescribed path _ := describePath_eq path
  calls := calls_of_nested (nested_readToken c) 0
  paired := (calls_of_nested (nested_readToken c) 0).paired

/-- The records of reading tokens, in order. -/
def tokenRecords (records : List Record) : List Record := records.filter (·.channel = .tokens)

/-- The records of two parts of a log follow each other. -/
theorem tokenRecords_append (front back : List Record) :
    tokenRecords (front ++ back) = tokenRecords front ++ tokenRecords back :=
  List.filter_append ..

/-- All records of a reading are records of reading tokens. -/
theorem tokenRecords_readingRecords {α : Type} (reading : Reading α) :
    tokenRecords (readingRecords reading) = readingRecords reading := by
  refine List.filter_eq_self.mpr fun record member => ?_
  obtain ⟨message, -, rfl⟩ := List.mem_map.mp member
  rfl

/-- No record of a notice is one of reading tokens. -/
theorem tokenRecords_noticeRecords (notices : List Notice) :
    tokenRecords (notices.map noticeRecord) = [] := by
  refine List.filter_eq_nil_iff.mpr fun record member => ?_
  obtain ⟨notice, -, rfl⟩ := List.mem_map.mp member
  exact Bool.false_ne_true

/-- Reading the first of the tokens that follow leaves its records, where there is one. -/
theorem tokenRecords_next (more : List (Reading Token)) :
    tokenRecords (more.head?.elim [] readingRecords) = more.head?.elim [] readingRecords := by
  cases more with
  | nil => rfl
  | cons reading _ => exact tokenRecords_readingRecords reading

/-- While tokens that were read are assembled, all of them but the first are read. -/
theorem tokenRecords_assemblyRecords (limit : Int) (state : State) (read : List (Reading Token)) :
    tokenRecords (assemblyRecords limit state read) = read.tail.flatMap readingRecords := by
  induction read generalizing state with
  | nil => rfl
  | cons reading more ih =>
    rw [assemblyRecords, tokenRecords_append, tokenRecords_append, tokenRecords_append, ih,
      tokenRecords_noticeRecords, tokenRecords_noticeRecords, tokenRecords_next, List.append_nil,
      List.nil_append]
    cases more with
    | nil => rfl
    | cons next more => rfl

/-- The records of reading tokens in the log of a parse are those of all readings, each once. -/
theorem tokenRecords_parseRecords (limit : Int) (text : String) :
    tokenRecords (parseRecords limit text) = (readings text).flatMap readingRecords := by
  rw [parseRecords, tokenRecords_append, tokenRecords_append, tokenRecords_assemblyRecords,
    tokenRecords_next]
  cases readings text with
  | nil => rfl
  | cons reading more => exact List.append_nil _

/-- The log of the readers is faithful and nested. With all records kept, a parse gives the same
tree as with warnings only, and the readers read the same tokens as those that keep no log. The
records of the readers in the log are the lines of all tokens, one group after the other, the end of
the text included and each token once, whatever becomes of it and however deep constructs may nest.
Every group starts with a line on the place of its token, ends with one that describes it, and has
only indented lines in between; in it the starts and the returns of readers belong together in
pairs, each reader indented by two blanks more than the one that called it. The count of the readers
at work is carried from token to token and never set back for that. -/
theorem token_trace_faithful (limit : Int) (text : String) :
    ∃ tree records, parseLogged true limit text = .ok (tree, records) ∧
      parseLogged false limit text = .ok (tree, records.filter (·.level = .warning)) ∧
      tryTokenize text = .ok (tokenize text) ∧
      ∃ groups : List (List String),
        records.filter (·.channel = .tokens) =
          groups.flatten.map (fun line => ⟨.tokens, .debug, line⟩) ∧
        List.Forall₂ TokenLog (tokenize text) groups := by
  refine ⟨(parse limit text).dress, parseRecords limit text, parseLogged_eq true limit text,
    parseLogged_eq false limit text, tryTokenize_eq text,
    (readings text).map fun reading => eventMessages 0 reading.events, ?_, ?_⟩
  · have records := tokenRecords_parseRecords limit text
    rw [tokenRecords] at records
    rw [records, List.map_flatten, List.map_map, List.flatMap_def]
    rfl
  · rw [tokenize, List.forall₂_map_left_iff, List.forall₂_map_right_iff, List.forall₂_same]
    intro reading member
    obtain ⟨c, -, rfl⟩ := exists_cursor_of_mem member
    exact tokenLog_readToken c

end TextTemplate.Log
