import TextTemplate.Proofs.Mentions
import TextTemplate.Proofs.Numerals
import TextTemplate.Proofs.SourceTokens
import TextTemplate.Proofs.TagReading
import TextTemplate.Proofs.TokenPositions
import TextTemplate.Template

/-!
# How paths lead through lists

The items of a list are reached by numerals. A segment of a path leads to the item whose index it
denotes, and nowhere when it denotes no index of the list. Names that are read in a template are no
numerals, so no path of a template leads through a list; only the path of a loop may end at one.
-/

namespace TextTemplate

open Data Expression Markup Text Unicode

namespace Data.Value

/-- In a list a segment is read as an index, and the other names lead on from the item there. -/
theorem resolve?_list_cons (items : List Value) (segment : String) (steps : List String) :
    (list items).resolve? (segment :: steps) =
      (numeralValue? segment).bind fun index => items[index]?.bind (resolve? steps) := by
  rw [resolve?, part?, Option.bind_assoc]

/-- A segment that denotes an index of a list leads to the item there. -/
theorem resolve?_list_of_denotes {items : List Value} {segment : String} {index : Nat}
    (inside : index < items.length) (denotes : Denotes segment index) (steps : List String) :
    (list items).resolve? (segment :: steps) = items[index].resolve? steps := by
  rw [resolve?_list_cons, numeralValue?_eq_some_iff.mpr denotes, Option.bind_some,
    List.getElem?_eq_getElem inside, Option.bind_some]

/-- A segment that denotes no index of a list leads nowhere. -/
theorem resolve?_list_of_no_index {items : List Value} {segment : String}
    (none : ∀ index < items.length, ¬Denotes segment index) (steps : List String) :
    (list items).resolve? (segment :: steps) = .none := by
  rw [resolve?_list_cons]
  cases read : numeralValue? segment with
  | none => rfl
  | some index =>
    have beyond : items.length ≤ index :=
      Nat.le_of_not_lt fun inside => none index inside (numeralValue?_eq_some_iff.mp read)
    rw [Option.bind_some, List.getElem?_eq_none beyond, Option.bind_none]

/-- In every list of the length the segment leads to the item at the index. -/
structure Reaches (segment : String) (length index : Nat) : Prop where
  /-- There is such an item. -/
  inside : index < length
  /-- The segment leads there. -/
  leads : ∀ items : List Value, items.length = length →
    (list items).resolve? [segment] = items[index]?

/-- A segment leads to the item at an index exactly when it denotes the index. -/
theorem reaches_iff {segment : String} {length index : Nat} :
    Reaches segment length index ↔ index < length ∧ Denotes segment index := by
  constructor
  · rintro ⟨inside, leads⟩
    -- In a list with a single text among empty lists, the item tells its index.
    have reached := leads ((List.replicate length (list [])).set index (text "")) (by simp)
    rw [List.getElem?_set_self (by simpa using inside), resolve?_list_cons,
      Option.bind_eq_some_iff] at reached
    obtain ⟨found, read, item⟩ := reached
    have same : index = found := by
      by_contra different
      rw [List.getElem?_set_ne different, List.getElem?_replicate] at item
      split at item <;> simp [resolve?] at item
    exact ⟨inside, same ▸ numeralValue?_eq_some_iff.mp read⟩
  · rintro ⟨inside, denotes⟩
    refine ⟨inside, fun items same => ?_⟩
    subst same
    rw [resolve?_list_of_denotes inside denotes, resolve?, List.getElem?_eq_getElem inside]

end Data.Value

namespace Markup

/-- The names that a lexeme holds, that of a loop variable among them. -/
def Lexeme.names : Lexeme → List String
  | .use path | .ifStart path | .elifTag path => path.parts
  | .forStart var path => var.text :: path.parts
  | .endOfText | .raw _ | .invalid _ | .forEnd | .elseTag | .ifEnd => []

/-- A name is no numeral. -/
theorem not_denotes_of_isName {name : String} (named : isName name.toList = true) (number : Nat) :
    ¬Denotes name number := by
  intro denotes
  obtain ⟨first, more, digit, row, is⟩ := denotes.starts
  rw [row, isName, is.not_start] at named
  contradiction

/-- The names in a tag are names. -/
theorem TagText.names_isName {text : List Char} {lexeme : Lexeme} (written : TagText text lexeme) :
    ∀ name ∈ lexeme.names, isName name.toList = true := by
  cases written with
  | use blanks₁ names blanks₂ => exact names.names_isName
  | statement blanks apart follows =>
    cases follows with
    | loop blanks₁ named blanks₂ apart₂ blanks₃ apart₃ names blanks₄ =>
      exact List.forall_mem_cons.mpr ⟨named, names.names_isName⟩
    | condition blanks₁ names blanks₂ | elseCondition blanks₁ names blanks₂ =>
      exact names.names_isName
    | endLoop blanks | otherwise blanks | endCondition blanks => exact nofun

/-- The names in the tokens of a text are names. -/
theorem isName_of_mem_tokenize {text : String} {token : Token} (member : token ∈ tokenize text) :
    ∀ name ∈ token.lexeme.names, isName name.toList = true := by
  obtain ⟨c, -, rfl⟩ := exists_cursor_of_mem_tokenize member
  intro name inside
  have tag : (Scan.readToken.run c).value.lexeme.isTag = true := by
    revert inside
    cases (Scan.readToken.run c).value.lexeme <;> simp [Lexeme.names, Lexeme.isTag]
  obtain ⟨written, tagText, -⟩ := Scan.readToken_sound (Scan.readToken.reads_run c) tag
  exact tagText.names_isName name inside

end Markup

namespace Expression.Node

/-- The node is made of tokens that hold all paths it mentions. -/
def HoldsMentions (node : Node) : Prop :=
  ∀ path ∈ node.mentions, ∃ token ∈ node.tokens, token.lexeme.path? = some path

/-- The paths that branches mention are held by their tokens when those of their bodies are. -/
theorem holdsMentions_branches {branches : List (Branch Node)}
    (bodies : ∀ branch ∈ branches, branch.body.HoldsMentions) (first : Bool) :
    ∀ path ∈ branchMentions branches,
      ∃ token ∈ branchTokens first branches, token.lexeme.path? = some path := by
  induction branches generalizing first with
  | nil => exact nofun
  | cons branch more ih =>
    obtain ⟨own, span, body⟩ := branch
    intro path member
    rw [branchMentions, List.mem_cons, List.mem_append] at member
    rcases member with rfl | inside | later
    · refine ⟨_, List.mem_cons_self .., ?_⟩
      cases first <;> rfl
    · obtain ⟨token, held, mentions⟩ := bodies ⟨own, span, body⟩ (by simp) path inside
      exact ⟨token, List.mem_cons_of_mem _ (List.mem_append_left _ held), mentions⟩
    · obtain ⟨token, held, mentions⟩ :=
        ih (fun b known => bodies b (List.mem_cons_of_mem _ known)) false path later
      exact ⟨token, List.mem_cons_of_mem _ (List.mem_append_right _ held), mentions⟩

/-- The paths that an expression mentions are held by its tokens. -/
theorem holdsMentions (node : Node) : node.HoldsMentions := by
  induction node using inductionOn with
  | raw | invalid | unexpected => exact nofun
  | use path span =>
    intro other member
    obtain rfl := List.mem_singleton.mp member
    exact ⟨_, List.mem_singleton.mpr rfl, rfl⟩
  | loop var path opening closing body ih =>
    intro other member
    rcases List.mem_cons.mp member with rfl | inside
    · exact ⟨_, List.mem_cons_self .., rfl⟩
    · obtain ⟨token, held, mentions⟩ := ih other inside
      exact ⟨token, List.mem_cons_of_mem _ (List.mem_append_left _ held), mentions⟩
  | choice branches otherwise closing branches_ih otherwise_ih =>
    intro path member
    rcases List.mem_append.mp member with inside | last
    · obtain ⟨token, held, mentions⟩ := holdsMentions_branches branches_ih true path inside
      exact ⟨token, List.mem_append_left _ (List.mem_append_left _ held), mentions⟩
    · cases otherwise with
      | none => nomatch last
      | some alternative =>
        obtain ⟨token, held, mentions⟩ := otherwise_ih alternative rfl path last
        exact ⟨token, List.mem_append_left _
          (List.mem_append_right _ (List.mem_cons_of_mem _ held)), mentions⟩
  | concat children ih =>
    intro path member
    rw [mentions, allMentions_eq_flatMap] at member
    obtain ⟨child, known, inside⟩ := List.mem_flatMap.mp member
    obtain ⟨token, held, mentions⟩ := ih child known path inside
    rw [tokens, allTokens_eq_flatMap]
    exact ⟨token, List.mem_flatMap.mpr ⟨child, known, held⟩, mentions⟩

end Expression.Node

namespace Markup

/-- A token that holds a path holds its names. -/
theorem Lexeme.parts_subset_names {lexeme : Lexeme} {path : Path}
    (held : lexeme.path? = some path) : path.parts ⊆ lexeme.names := by
  cases lexeme with
  | use own | ifStart own | elifTag own =>
    obtain rfl := Option.some.inj held
    exact List.Subset.refl _
  | forStart var own =>
    obtain rfl := Option.some.inj held
    exact List.subset_cons_self ..
  | endOfText | raw _ | invalid _ | forEnd | elseTag | ifEnd => nomatch held

/-- A token that holds a path is genuine. -/
theorem Token.genuine_of_path? {token : Token} {path : Path}
    (held : token.lexeme.path? = some path) : token.genuine = true := by
  obtain ⟨lexeme, span⟩ := token
  cases lexeme <;> first | rfl | nomatch held

end Markup

namespace Expression

/-- The paths that a parsed template mentions consist of names. -/
theorem isName_of_parse {limit : Int} {text : String} {path : Path}
    (member : path ∈ (parse limit text).mentions) :
    ∀ name ∈ path.parts, isName name.toList = true := by
  obtain ⟨token, inside, held⟩ := (parse limit text).holdsMentions path member
  have genuine : token ∈ contentTokens text := by
    rw [← genuine_parse limit text]
    exact List.mem_filter.mpr ⟨inside, Token.genuine_of_path? held⟩
  have read : token ∈ tokenize text := (List.dropLast_sublist _).subset genuine
  intro name part
  exact isName_of_mem_tokenize read name (Lexeme.parts_subset_names held part)

end Expression

/-- What segments of paths mean in lists. A segment leads to the item whose index it denotes in
base ten, with digits of any scripts and with any zeros in front, and nowhere if it denotes none of
the list. Every index is denoted by its usual digits, and two segments that reach the same item
denote the same number. No name that is read in a template denotes a number, whether by a single
reader or as a part of a token. So a path of a parsed template that has names left where it comes to
a list leads nowhere. -/
theorem list_segments_denote :
    (∀ (items : List Value) (segment : String) (steps : List String),
      (∀ (index : Nat) (inside : index < items.length), Denotes segment index →
        (Value.list items).resolve? (segment :: steps) = items[index].resolve? steps) ∧
      ((∀ index < items.length, ¬Denotes segment index) →
        (Value.list items).resolve? (segment :: steps) = none)) ∧
    (∀ index, Denotes (toString index) index) ∧
    (∀ segment other length index, Value.Reaches segment length index →
      Value.Reaches other length index → ∃ number, Denotes segment number ∧ Denotes other number) ∧
    (∀ c ident, (Scan.readName.run c).value = some ident → ∀ number, ¬Denotes ident.text number) ∧
    (∀ text, ∀ token ∈ tokenize text, ∀ name ∈ token.lexeme.names, ∀ number,
      ¬Denotes name number) ∧
    ∀ limit text, ∀ path ∈ (parse limit text).mentions, ∀ front next back,
      path.parts = front ++ next :: back → ∀ (context : Context) (items : List Value),
        context.resolve? front = some (.list items) → context.resolve? path.parts = none := by
  refine ⟨fun items segment steps => ⟨fun index inside denotes => ?_, fun none => ?_⟩,
    denotes_toString, fun segment other length index reaches also => ?_,
    fun c ident read => ?_, fun text token member name inside => ?_,
    fun limit text path member front next back split context items found => ?_⟩
  · exact Value.resolve?_list_of_denotes inside denotes steps
  · exact Value.resolve?_list_of_no_index none steps
  · exact ⟨index, (Value.reaches_iff.mp reaches).2, (Value.reaches_iff.mp also).2⟩
  · exact not_denotes_of_isName (Scan.readName_sound ⟨read, rfl⟩).1
  · exact not_denotes_of_isName (isName_of_mem_tokenize member name inside)
  · have named : isName next.toList = true := isName_of_parse member next (by simp [split])
    rw [Context.resolve?] at found ⊢
    rw [split, Value.resolve?_append, found, Option.bind_some]
    exact Value.resolve?_list_of_no_index (fun index _ => not_denotes_of_isName named index) back

/-- The second item is reached by digits of two scripts with a zero in front, and no third one is
reached. The template holds a name with a digit in it, and asks for the key of an item by a name. -/
theorem list_segments_denote_across_scripts :
    let items : List Value := [.text "a", .map [("key", .text "b")]]
    let text := interpolation "x1.first.key"
    let path : Path := ⟨"x1", ["first", "key"], ⟨"x1.first.key", ⟨3, 1, 4⟩, ⟨15, 1, 16⟩⟩⟩
    let token : Token := ⟨.use path, ⟨text, ⟨0, 1, 1⟩, ⟨18, 1, 19⟩⟩⟩
    let name : Ident := ⟨"x1", ⟨"x1", ⟨0, 1, 1⟩, ⟨2, 1, 3⟩⟩⟩
    let context : Context := ⟨[("x1", .list items)]⟩
    (1 < items.length ∧ Denotes "0\u0661" 1 ∧
      (Value.list items).resolve? ["0\u0661", "key"] = some (.text "b")) ∧
    ((∀ index < items.length, ¬Denotes "2" index) ∧
      (Value.list items).resolve? ["2", "key"] = none) ∧
    (Value.Reaches "1" 2 1 ∧ Value.Reaches "0\u0661" 2 1 ∧
      ∃ number, Denotes "1" number ∧ Denotes "0\u0661" number) ∧
    ((Scan.readName.run (.ofText "x1.")).value = some name ∧ ∀ number, ¬Denotes "x1" number) ∧
    (token ∈ tokenize text ∧ "key" ∈ token.lexeme.names ∧ ∀ number, ¬Denotes "key" number) ∧
    path ∈ (parse defaultNesting text).mentions ∧ path.parts = ["x1"] ++ "first" :: ["key"] ∧
      context.resolve? ["x1"] = some (.list items) ∧ context.resolve? path.parts = none := by
  intro items text path token name context
  obtain ⟨segments, usual, reaching, single, parts, templates⟩ := list_segments_denote
  have second : 1 < items.length := by decide
  have denotes : Denotes "0\u0661" 1 := numeralValue?_eq_some_iff.mp (by decide +kernel)
  have none : ∀ index < items.length, ¬Denotes "2" index := by
    intro index inside also
    obtain rfl := also.unique (usual 2)
    contradiction
  have reaches : Value.Reaches "1" 2 1 := Value.reaches_iff.mpr ⟨by decide, usual 1⟩
  have also : Value.Reaches "0\u0661" 2 1 := Value.reaches_iff.mpr ⟨by decide, denotes⟩
  have read : (Scan.readName.run (.ofText "x1.")).value = some name := by decide +kernel
  have member : token ∈ tokenize text := by decide +kernel
  have inside : "key" ∈ token.lexeme.names := by decide
  have mentioned : path ∈ (parse defaultNesting text).mentions := by decide +kernel
  have found : context.resolve? ["x1"] = some (.list items) := by decide
  exact ⟨⟨second, denotes, (segments items _ ["key"]).1 1 second denotes⟩,
    ⟨none, (segments items _ ["key"]).2 none⟩,
    ⟨reaches, also, reaching _ _ 2 1 reaches also⟩,
    ⟨read, single _ name read⟩, ⟨member, inside, parts text token member "key" inside⟩,
    mentioned, rfl, found,
    templates _ text path mentioned ["x1"] "first" ["key"] rfl context items found⟩

end TextTemplate
