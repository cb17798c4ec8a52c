import TextTemplate.Markup.Keyword
import TextTemplate.Markup.Token
import TextTemplate.Proofs.CharacterClasses

/-!
# How tags may be written

A tag may be written with any blanks between its parts, or with none where the parts are told apart
without them. A keyword is the longest run of letters and a name the longest run of characters of
names, so what follows them must not continue the run. The canonical form is one of the ways to
write a tag.
-/

namespace TextTemplate.Markup

open Unicode

/-- The text starts with no character of the class. -/
def Apart (member : Char → Bool) (text : List Char) : Prop :=
  ∀ next, text.head? = some next → member next = false

/-- The text consists of blanks. -/
def Blanks (text : List Char) : Prop := ∀ c ∈ text, isBlank c = true

/-- The text is a name. -/
def isName : List Char → Bool
  | [] => false
  | first :: more => isIdentifierStart first && more.all isIdentifierContinue

/-- How the names of a path may be written: with a dot between each two of them, and possibly one
more at the end. -/
inductive PathText : List Char → List String → Prop
  /-- The last name. -/
  | last {name : String} (named : isName name.toList = true) : PathText name.toList [name]
  /-- The last name with a dot behind it. -/
  | dotted {name : String} (named : isName name.toList = true) :
      PathText (name.toList ++ ['.']) [name]
  /-- A name with more names behind it. -/
  | step {name : String} {text : List Char} {names : List String}
      (named : isName name.toList = true) (more : PathText text names) :
      PathText (name.toList ++ '.' :: text) (name :: names)

/-- How a statement tag may be written behind its keyword. -/
inductive TagBody : Keyword → List Char → Lexeme → Prop
  /-- The head of a loop. -/
  | loop {w₁ w₂ w₃ w₄ text : List Char} {var : Ident} {path : Path} (blanks₁ : Blanks w₁)
      (named : isName var.text.toList = true) (blanks₂ : Blanks w₂)
      (apart₂ : Apart isIdentifierContinue (w₂ ++ Keyword.within.spelling.toList))
      (blanks₃ : Blanks w₃) (apart₃ : Apart isLetter (w₃ ++ text))
      (names : PathText text path.parts) (blanks₄ : Blanks w₄) :
      TagBody .loop
        (w₁ ++ (var.text.toList ++ (w₂ ++ (Keyword.within.spelling.toList ++
          (w₃ ++ (text ++ (w₄ ++ ['%', '\x7d'])))))))
        (.forStart var path)
  /-- The head of a conditional. -/
  | condition {w₁ w₂ text : List Char} {path : Path} (blanks₁ : Blanks w₁)
      (names : PathText text path.parts) (blanks₂ : Blanks w₂) :
      TagBody .condition (w₁ ++ (text ++ (w₂ ++ ['%', '\x7d']))) (.ifStart path)
  /-- A further branch. -/
  | elseCondition {w₁ w₂ text : List Char} {path : Path} (blanks₁ : Blanks w₁)
      (names : PathText text path.parts) (blanks₂ : Blanks w₂) :
      TagBody .elseCondition (w₁ ++ (text ++ (w₂ ++ ['%', '\x7d']))) (.elifTag path)
  /-- The end of a loop. -/
  | endLoop {w : List Char} (blanks : Blanks w) : TagBody .endLoop (w ++ ['%', '\x7d']) .forEnd
  /-- The branch for all other cases. -/
  | otherwise {w : List Char} (blanks : Blanks w) :
      TagBody .otherwise (w ++ ['%', '\x7d']) .elseTag
  /-- The end of a conditional. -/
  | endCondition {w : List Char} (blanks : Blanks w) :
      TagBody .endCondition (w ++ ['%', '\x7d']) .ifEnd

/-- How a tag may be written. -/
inductive TagText : List Char → Lexeme → Prop
  /-- The place of a value. -/
  | use {w₁ w₂ text : List Char} {path : Path} (blanks₁ : Blanks w₁)
      (names : PathText text path.parts) (blanks₂ : Blanks w₂) :
      TagText ('\x7b' :: '\x7b' :: (w₁ ++ (text ++ (w₂ ++ ['\x7d', '\x7d'])))) (.use path)
  /-- A statement tag. -/
  | statement {w body : List Char} {keyword : Keyword} {lexeme : Lexeme} (blanks : Blanks w)
      (apart : Apart isLetter body) (follows : TagBody keyword body lexeme) :
      TagText ('\x7b' :: '%' :: (w ++ (keyword.spelling.toList ++ body))) lexeme

/-- A text is apart from a class that its first character lies outside of. -/
theorem apart_cons {member : Char → Bool} {first : Char} (outside : member first = false)
    (more : List Char) : Apart member (first :: more) := by
  intro next starts
  obtain rfl := Option.some.inj starts
  exact outside

/-- A text that is not empty starts like itself with anything behind it. -/
theorem Apart.append {member : Char → Bool} {front : List Char} (apart : Apart member front)
    (nonempty : front ≠ []) (back : List Char) : Apart member (front ++ back) := by
  cases front with
  | nil => contradiction
  | cons first front => exact apart

/-- The front of a text that is apart from a class is apart from it. -/
theorem Apart.front {member : Char → Bool} {front back : List Char}
    (apart : Apart member (front ++ back)) : Apart member front := by
  cases front with
  | nil => exact nofun
  | cons first front => exact apart

/-- Blanks start with nothing that is kept apart from them, so it is enough to look behind them. -/
theorem apart_blanks {member : Char → Bool} (outside : ∀ c, isBlank c = true → member c = false)
    {w : List Char} (blanks : Blanks w) {text : List Char} (apart : Apart member text) :
    Apart member (w ++ text) := by
  cases w with
  | nil => exact apart
  | cons first w => exact apart_cons (outside first (blanks first (by simp))) _

/-- A name is not empty. -/
theorem ne_nil_of_isName {name : List Char} (named : isName name = true) : name ≠ [] := by
  rintro rfl
  contradiction

/-- A name starts with no blank. -/
theorem apart_of_isName {name : List Char} (named : isName name = true) (back : List Char) :
    Apart isBlank (name ++ back) := by
  cases name with
  | nil => contradiction
  | cons first more =>
    simp only [isName, Bool.and_eq_true] at named
    exact apart_cons (isBlank_of_continue (isIdentifierContinue_of_start named.1)) _

/-- The names of a path are names. -/
theorem PathText.names_isName {text : List Char} {names : List String}
    (written : PathText text names) : ∀ name ∈ names, isName name.toList = true := by
  induction written with
  | last named | dotted named => simpa using named
  | step named more ih => simpa [named] using ih

/-- A path has names. -/
theorem PathText.names_ne_nil {text : List Char} {names : List String}
    (written : PathText text names) : names ≠ [] := by
  cases written <;> exact nofun

/-- A path is not written with nothing. -/
theorem PathText.ne_nil {text : List Char} {names : List String} (written : PathText text names) :
    text ≠ [] := by
  cases written with
  | last named => exact ne_nil_of_isName named
  | dotted named => simp
  | step named more => simp

/-- A path starts with no blank. -/
theorem PathText.apart {text : List Char} {names : List String} (written : PathText text names)
    (back : List Char) : Apart isBlank (text ++ back) := by
  cases written with
  | last named => exact apart_of_isName named back
  | dotted named =>
    rw [List.append_assoc]
    exact apart_of_isName named _
  | step named more =>
    rw [List.append_assoc]
    exact apart_of_isName named _

/-- There is always something behind a keyword. -/
theorem TagBody.ne_nil {keyword : Keyword} {body : List Char} {lexeme : Lexeme}
    (written : TagBody keyword body lexeme) : body ≠ [] := by
  cases written <;> simp

/-- Names are written as a path with dots between them. -/
theorem pathText_intercalate (root : String) (steps : List String)
    (named : ∀ name ∈ root :: steps, isName name.toList = true) :
    PathText (".".intercalate (root :: steps)).toList (root :: steps) := by
  induction steps generalizing root with
  | nil =>
    rw [String.intercalate_singleton]
    exact .last (named root (by simp))
  | cons next steps ih =>
    have more := ih next fun name member => named name (List.mem_cons_of_mem _ member)
    rw [String.intercalate_cons_cons, String.toList_append, String.toList_append,
      List.append_assoc]
    exact .step (named root (by simp)) more

/-- The dotted form of a path is one of the ways to write it. -/
theorem PathText.canonical {text : List Char} {path : Path} (written : PathText text path.parts) :
    PathText path.dotted.toList path.parts :=
  pathText_intercalate path.root path.steps written.names_isName

/-- A single blank. -/
theorem blanks_space : Blanks [' '] := by
  intro c member
  rw [List.mem_singleton.mp member]
  decide +kernel

/-- A blank keeps keywords and names apart from what follows. -/
theorem apart_space (text : List Char) :
    Apart isLetter (' ' :: text) ∧ Apart isIdentifierContinue (' ' :: text) := by
  have apart := apart_of_isBlank (blanks_space ' ' (by simp))
  exact ⟨apart_cons apart.1 text, apart_cons apart.2 text⟩

/-- The canonical form of a tag is one of the ways to write it. -/
theorem TagText.canonical {text : List Char} {lexeme : Lexeme} (written : TagText text lexeme) :
    TagText lexeme.canonical.toList lexeme := by
  cases written with
  | @use _ _ _ path _ names _ =>
    have whole : (Lexeme.use path).canonical.toList =
        '\x7b' :: '\x7b' :: ([' '] ++ (path.dotted.toList ++ ([' '] ++ ['\x7d', '\x7d']))) := by
      simp [Lexeme.canonical, interpolation]
    rw [whole]
    exact .use blanks_space names.canonical blanks_space
  | statement _ _ follows =>
    cases follows with
    | @loop _ _ _ _ _ var path _ named _ _ _ _ names _ =>
      have whole : (Lexeme.forStart var path).canonical.toList =
          '\x7b' :: '%' :: ([' '] ++ (Keyword.loop.spelling.toList ++ ([' '] ++
            (var.text.toList ++ ([' '] ++ (Keyword.within.spelling.toList ++ ([' '] ++
              (path.dotted.toList ++ ([' '] ++ ['%', '\x7d']))))))))) := by
        simp [Lexeme.canonical, Markup.statement, Keyword.spelling]
      rw [whole]
      exact .statement blanks_space (apart_space _).1
        (.loop blanks_space named blanks_space (apart_space _).2 blanks_space (apart_space _).1
          names.canonical blanks_space)
    | @condition _ _ _ path _ names _ =>
      have whole : (Lexeme.ifStart path).canonical.toList =
          '\x7b' :: '%' :: ([' '] ++ (Keyword.condition.spelling.toList ++ ([' '] ++
            (path.dotted.toList ++ ([' '] ++ ['%', '\x7d']))))) := by
        simp [Lexeme.canonical, Markup.statement, Keyword.spelling]
      rw [whole]
      exact .statement blanks_space (apart_space _).1
        (.condition blanks_space names.canonical blanks_space)
    | @elseCondition _ _ _ path _ names _ =>
      have whole : (Lexeme.elifTag path).canonical.toList =
          '\x7b' :: '%' :: ([' '] ++ (Keyword.elseCondition.spelling.toList ++ ([' '] ++
            (path.dotted.toList ++ ([' '] ++ ['%', '\x7d']))))) := by
        simp [Lexeme.canonical, Markup.statement, Keyword.spelling]
      rw [whole]
      exact .statement blanks_space (apart_space _).1
        (.elseCondition blanks_space names.canonical blanks_space)
    | endLoop _ =>
      exact .statement blanks_space (apart_space _).1 (.endLoop blanks_space)
    | otherwise _ =>
      exact .statement blanks_space (apart_space _).1 (.otherwise blanks_space)
    | endCondition _ =>
      exact .statement blanks_space (apart_space _).1 (.endCondition blanks_space)

end TextTemplate.Markup
