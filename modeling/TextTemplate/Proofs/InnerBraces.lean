import TextTemplate.Proofs.NameReading

/-!
# Tokens hold braces at their front only

Whatever a tag or a literal text is given up for, reading has stopped in front of the next opening
brace by then. So an opening brace is the first character of a token, or the second one behind
another brace. Closing braces may stand anywhere.
-/

namespace TextTemplate.Markup

open Text Unicode

/-- No character is an opening brace, but for the first one, and for the second one behind
another brace. -/
def BracesInFront (covered : List Char) : Prop :=
  '\x7b' ∉ covered.tail ∨ ∃ more, covered = '\x7b' :: '\x7b' :: more ∧ '\x7b' ∉ more

/-- Where another brace stands behind its front, that front is a single brace. -/
theorem BracesInFront.eq_brace {front back : List Char}
    (braces : BracesInFront (front ++ '\x7b' :: back)) (nonempty : front ≠ []) :
    front = ['\x7b'] := by
  obtain ⟨first, more, rfl⟩ := List.exists_cons_of_ne_nil nonempty
  rcases braces with clean | ⟨others, twice, clean⟩
  · exact absurd (by simp) clean
  · obtain ⟨rfl, behind⟩ := List.cons.inj twice
    cases more with
    | nil => rfl
    | cons second more =>
      have others_eq : more ++ '\x7b' :: back = others := (List.cons.inj behind).2
      exact absurd (by simp [← others_eq]) clean

namespace Scan

variable {α β : Type}

/-- Wherever the scan is run, it passes no opening brace. -/
def Braceless (scan : Scan α) : Prop :=
  ∀ c, ∃ passed, c.rest = passed ++ (scan.run c).cursor.rest ∧ '\x7b' ∉ passed

/-- A scan that stays in place passes no brace. -/
theorem Braceless.of_still {scan : Scan α} (still : ∀ c, (scan.run c).cursor = c) :
    Braceless scan :=
  fun c => ⟨[], by rw [still, List.nil_append], List.not_mem_nil⟩

/-- What is given is read past no brace. -/
theorem Braceless.pure (value : α) : Braceless (pure value) := .of_still fun _ => rfl

/-- Taking a span passes no brace. -/
theorem Braceless.since (start : Pos) : Braceless (since start) := .of_still fun _ => rfl

/-- Tracing passes what is passed anyway. -/
theorem Braceless.traced {scan : Scan α} (reader : Reader) (outcome : α → Outcome)
    (passes : Braceless scan) : Braceless (scan.traced reader outcome) :=
  passes

/-- Scans in a row pass no brace when none of them does. -/
theorem Braceless.bind {first : Scan α} {next : α → Scan β} (passes : Braceless first)
    (following : ∀ value, Braceless (next value)) : Braceless (first >>= next) := by
  intro c
  obtain ⟨front, rest, clean⟩ := passes c
  obtain ⟨back, rest', clean'⟩ := following (first.run c).value (first.run c).cursor
  refine ⟨front ++ back, ?_, ?_⟩
  · rw [rest, rest', List.append_assoc]
    rfl
  · simp [clean, clean']

/-- Skipping a class of characters without the opening brace passes no brace. -/
theorem Braceless.skipWhile {member : Char → Bool} (other : member '\x7b' = false) :
    Braceless (skipWhile member) := by
  intro c
  refine ⟨c.rest.takeWhile member, ?_, fun inside => ?_⟩
  · rw [run_skipWhile, Cursor.rest_skipWhile, List.takeWhile_append_dropWhile]
  · have belongs := List.all_eq_true.mp List.all_takeWhile _ inside
    rw [other] at belongs
    contradiction

/-- Accepting characters that are no opening braces passes no brace. -/
theorem Braceless.acceptAll {expected : List Char} (clean : '\x7b' ∉ expected) :
    Braceless (acceptAll expected) := by
  induction expected with
  | nil => exact .pure true
  | cons first more ih =>
    intro c
    by_cases accepted : c.current? = some first
    · obtain ⟨tail, whole⟩ := List.head?_eq_some_iff.mp accepted
      obtain ⟨passed, rest, clean'⟩ := ih (fun inside => clean (.tail first inside)) c.advance
      rw [Cursor.rest_advance, whole, List.tail_cons] at rest
      refine ⟨first :: passed, ?_, ?_⟩
      · rw [whole, rest]
        simp [Scan.acceptAll, accepted]
      · simp only [List.mem_cons, not_or] at clean ⊢
        exact ⟨clean.1, clean'⟩
    · refine ⟨[], ?_, List.not_mem_nil⟩
      simp [Scan.acceptAll, accepted]

/-- An opening brace belongs to no class of characters that is skipped. -/
theorem brace_apart : isBlank '\x7b' = false ∧ isLetter '\x7b' = false ∧
    isIdentifierContinue '\x7b' = false :=
  apart_of_markup (by simp)

/-- Skipping blanks passes no brace. -/
theorem Braceless.skipBlanks : Braceless skipBlanks := .skipWhile brace_apart.1

/-- Literal text is read past no brace. -/
theorem Braceless.readRaw (start : Pos) : Braceless (readRaw start) :=
  .traced .raw .token (.bind (.skipWhile rfl) fun _ => .bind (.since start) fun _ => .pure _)

/-- An invalid tag is given up in place. -/
theorem Braceless.readInvalid (start : Pos) : Braceless (readInvalid start) :=
  .traced .invalid .token (.bind (.since start) fun _ => .pure _)

/-- A keyword is read past no brace. -/
theorem Braceless.readKeyword : Braceless readKeyword :=
  .traced .keyword .keyword (.bind (.of_still fun _ => rfl) fun _ =>
    .bind (.skipWhile brace_apart.2.1) fun _ => .bind (.since _) fun _ => .pure _)

/-- A name is read past no brace. -/
theorem Braceless.readName : Braceless readName := by
  intro c
  rcases apart_or_starts isIdentifierStart c.rest with apart | ⟨first, more, text, starts⟩
  · refine ⟨[], ?_, List.not_mem_nil⟩
    rw [(readName_of_no_start apart).2, List.nil_append]
  · obtain ⟨d, ident, ⟨-, stop⟩, -, rest⟩ := readName_of_start text starts
    have continues : ∀ next ∈ first :: more.takeWhile isIdentifierContinue,
        isIdentifierContinue next = true := by
      refine List.forall_mem_cons.mpr ⟨isIdentifierContinue_of_start starts, ?_⟩
      exact List.all_eq_true.mp List.all_takeWhile
    refine ⟨first :: more.takeWhile isIdentifierContinue, ?_, fun inside => ?_⟩
    · rw [stop, rest, text, List.cons_append, List.takeWhile_append_dropWhile]
    · have belongs := continues _ inside
      rw [brace_apart.2.2] at belongs
      contradiction

/-- The names of a path and the dots between them are read past no brace. -/
theorem Braceless.readNames : Braceless readNames := by
  intro c
  change ∃ passed, c.rest = passed ++ (namesAt c).cursor.rest ∧ '\x7b' ∉ passed
  fun_induction namesAt c with
  | case1 c name absent => exact Braceless.readName c
  | case2 c name ident found dot more ih =>
    obtain ⟨front, rest, clean⟩ := Braceless.readName c
    obtain ⟨back, rest', clean'⟩ := ih
    obtain ⟨tail, whole⟩ := List.head?_eq_some_iff.mp dot
    rw [Cursor.rest_advance, whole, List.tail_cons] at rest'
    refine ⟨front ++ '.' :: back, ?_, by simp [clean, clean']⟩
    change c.rest = front ++ name.cursor.rest at rest
    rw [rest, whole, rest', List.append_assoc]
    rfl
  | case3 c name ident found last => exact Braceless.readName c

/-- A path is read past no brace. -/
theorem Braceless.readPath : Braceless readPath := by
  refine .traced .path .path (.bind (.of_still fun _ => rfl) fun start =>
    .bind .readNames fun names => ?_)
  cases names with
  | nil => exact .pure none
  | cons root steps => exact .bind (.since start) fun _ => .pure _

/-- The end of a statement tag holds no opening brace. -/
theorem Braceless.readStatementClose : Braceless readStatementClose :=
  .bind .skipBlanks fun _ => .acceptAll (by decide)

/-- A tag that is complete but for its end is read past no brace. -/
theorem Braceless.readBareTag (lexeme : Lexeme) (start : Pos) :
    Braceless (readBareTag lexeme start) := by
  refine .bind .readStatementClose fun closed => ?_
  cases closed with
  | false => exact .pure none
  | true => exact .of_still fun _ => rfl

/-- The rest of a loop head is read past no brace. -/
theorem Braceless.readLoopHead (start : Pos) : Braceless (readLoopHead start) := by
  refine .bind .skipBlanks fun _ => .bind .readName fun var => ?_
  cases var with
  | none => exact .pure none
  | some var =>
    refine .bind .skipBlanks fun _ => .bind .readKeyword fun keyword => ?_
    split
    · refine .bind .skipBlanks fun _ => .bind .readPath fun path => ?_
      cases path with
      | none => exact .pure none
      | some path => exact .readBareTag (.forStart var path) start
    · exact .pure none

/-- The rest of a tag that holds a condition is read past no brace. -/
theorem Braceless.readCondition (lexeme : Path → Lexeme) (start : Pos) :
    Braceless (readCondition lexeme start) := by
  refine .bind .skipBlanks fun _ => .bind .readPath fun path => ?_
  cases path with
  | none => exact .pure none
  | some path => exact .readBareTag (lexeme path) start

/-- The rest of the tag that a keyword opens is read past no brace. -/
theorem Braceless.readTag (start : Pos) (keyword : Keyword) :
    Braceless (readTag start keyword) := by
  cases keyword with
  | loop => exact .readLoopHead start
  | within => exact .pure none
  | endLoop => exact .readBareTag .forEnd start
  | condition => exact .readCondition .ifStart start
  | elseCondition => exact .readCondition .elifTag start
  | otherwise => exact .readBareTag .elseTag start
  | endCondition => exact .readBareTag .ifEnd start

/-- Wherever the scan is run, it passes no opening brace behind the next character. -/
def BracelessInside (scan : Scan α) : Prop :=
  ∀ c, ∃ passed, c.rest.tail = passed ++ (scan.run c).cursor.rest ∧ '\x7b' ∉ passed

/-- A scan that passes one character first passes no brace behind it when what follows does not. -/
theorem BracelessInside.of_advance {next : Unit → Scan α} (following : Braceless (next ())) :
    BracelessInside (advance >>= next) := by
  intro c
  obtain ⟨passed, rest, clean⟩ := following c.advance
  rw [Cursor.rest_advance] at rest
  exact ⟨passed, rest, clean⟩

/-- A statement, readable or not, is read past no brace behind its percent sign. -/
theorem BracelessInside.readStatement (start : Pos) : BracelessInside (readStatement start) := by
  refine .of_advance (.bind .skipBlanks fun _ => .bind .readKeyword fun keyword => ?_)
  cases keyword with
  | none => exact .readInvalid start
  | some keyword =>
    refine .bind (.readTag start keyword) fun tag => ?_
    cases tag with
    | none => exact .readInvalid start
    | some tag => exact .pure tag

/-- An interpolation, readable or not, is read past no brace behind its second one. -/
theorem BracelessInside.readInterpolation (start : Pos) :
    BracelessInside (readInterpolation start) := by
  refine .of_advance (.bind .skipBlanks fun _ => .bind .readPath fun path => ?_)
  cases path with
  | none => exact .readRaw start
  | some path =>
    refine .bind .skipBlanks fun _ => .bind (.acceptAll (by decide)) fun closed => ?_
    cases closed with
    | false => exact .readRaw start
    | true => exact .bind (.since start) fun _ => .pure _

/-- Behind an opening brace, what is read makes a token with braces at its front only. -/
theorem bracesInFront_readAfterBrace (start : Pos) (c : Cursor) :
    ∃ passed, c.rest = passed ++ ((readAfterBrace start).run c).cursor.rest ∧
      BracesInFront ('\x7b' :: passed) := by
  simp only [readAfterBrace, run_bind, run_current?]
  split
  · next brace =>
    obtain ⟨tail, whole⟩ := List.head?_eq_some_iff.mp brace
    obtain ⟨passed, rest, clean⟩ := BracelessInside.readInterpolation start c
    rw [whole, List.tail_cons] at rest
    exact ⟨'\x7b' :: passed, by rw [whole, rest, List.cons_append], .inr ⟨passed, rfl, clean⟩⟩
  · next percent =>
    obtain ⟨tail, whole⟩ := List.head?_eq_some_iff.mp percent
    obtain ⟨passed, rest, clean⟩ := BracelessInside.readStatement start c
    rw [whole, List.tail_cons] at rest
    exact ⟨'%' :: passed, by rw [whole, rest, List.cons_append], .inl (by simp [clean])⟩
  · obtain ⟨passed, rest, clean⟩ := Braceless.readRaw start c
    exact ⟨passed, rest, .inl clean⟩

/-- A token holds opening braces at its front only. -/
theorem bracesInFront_readToken (c : Cursor) :
    ∃ covered, c.rest = covered ++ (readToken.run c).cursor.rest ∧ BracesInFront covered := by
  simp only [readToken, cursor_traced, run_bind, run_here, run_current?]
  split
  · next ended => exact ⟨[], rfl, .inl List.not_mem_nil⟩
  · next brace =>
    obtain ⟨tail, whole⟩ := List.head?_eq_some_iff.mp brace
    obtain ⟨passed, rest, front⟩ := bracesInFront_readAfterBrace c.pos c.advance
    rw [Cursor.rest_advance, whole, List.tail_cons] at rest
    exact ⟨'\x7b' :: passed, by rw [whole, rest]; rfl, front⟩
  · obtain ⟨passed, rest, clean⟩ := Braceless.readRaw c.pos c
    exact ⟨passed, rest, .inl fun inside => clean (List.mem_of_mem_tail inside)⟩

end Scan

end TextTemplate.Markup
