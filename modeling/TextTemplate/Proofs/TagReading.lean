import TextTemplate.Proofs.NameReading
import TextTemplate.Proofs.Relocation

/-!
# Tags are read as they may be written

Every reader of a tag is shown to be sound and complete for the grammar of tags: what it reads is
written as the grammar says, and what is written so is read with all that it says, whatever follows.
-/

namespace TextTemplate.Markup

open Text Unicode

namespace Scan

/-- The end of a statement tag that is read is written as one. -/
theorem readStatementClose_sound {c d : Cursor} (read : readStatementClose.Reads c true d) :
    ∃ w, Blanks w ∧ c.rest = w ++ ['%', '\x7d'] ++ d.rest := by
  obtain ⟨_, e, skipped, read⟩ := reads_bind.mp read
  obtain ⟨w, blanks, text⟩ := skipBlanks_sound skipped
  exact ⟨w, blanks, by rw [text, acceptAll_sound read, List.append_assoc]⟩

/-- The end of a statement tag is read behind any blanks. -/
theorem readStatementClose_complete {c : Cursor} {w tail : List Char} (blanks : Blanks w)
    (ahead : c.rest = w ++ (['%', '\x7d'] ++ tail)) :
    ∃ d, readStatementClose.Reads c true d ∧ d.rest = tail := by
  have apart : Apart isBlank (['%', '\x7d'] ++ tail) :=
    apart_cons (apart_of_markup (by simp)).1 _
  obtain ⟨d, skipped, rest⟩ := skipBlanks_complete blanks apart ahead
  obtain ⟨e, accepted, rest'⟩ := acceptAll_complete _ rest
  exact ⟨e, reads_bind.mpr ⟨(), d, skipped, accepted⟩, rest'⟩

/-- A tag that is complete but for its end, and is read, ends as a statement tag. -/
theorem readBareTag_sound {lexeme : Lexeme} {start : Pos} {c d : Cursor} {token : Token}
    (read : (readBareTag lexeme start).Reads c (some token) d) :
    token.lexeme = lexeme ∧ ∃ w, Blanks w ∧ c.rest = w ++ ['%', '\x7d'] ++ d.rest := by
  obtain ⟨closed, e, ended, read⟩ := reads_bind.mp read
  cases closed with
  | false => exact nomatch (reads_pure.mp read).1
  | true =>
    obtain ⟨_, _, ⟨rfl, rfl⟩, read⟩ := reads_bind.mp read
    obtain ⟨same, rfl⟩ := reads_pure.mp read
    obtain rfl := Option.some.inj same
    exact ⟨rfl, readStatementClose_sound ended⟩

/-- A tag that is complete but for its end is read with any blanks in front of the end. -/
theorem readBareTag_complete (lexeme : Lexeme) (start : Pos) {c : Cursor} {w tail : List Char}
    (blanks : Blanks w) (ahead : c.rest = w ++ (['%', '\x7d'] ++ tail)) :
    ∃ d token, (readBareTag lexeme start).Reads c (some token) d ∧ token.lexeme = lexeme ∧
      d.rest = tail := by
  obtain ⟨d, ended, rest⟩ := readStatementClose_complete blanks ahead
  refine ⟨d, ⟨lexeme, d.since start⟩, ?_, rfl, rest⟩
  exact reads_bind.mpr ⟨true, d, ended, ⟨rfl, rfl⟩⟩

/-- A loop head that is read is written as one. -/
theorem readLoopHead_sound {start : Pos} {c d : Cursor} {token : Token}
    (read : (readLoopHead start).Reads c (some token) d) :
    ∃ body, TagBody .loop body token.lexeme ∧ c.rest = body ++ d.rest := by
  obtain ⟨_, c₁, skipped₁, read⟩ := reads_bind.mp read
  obtain ⟨w₁, blanks₁, text₁⟩ := skipBlanks_sound skipped₁
  obtain ⟨var, c₂, named, read⟩ := reads_bind.mp read
  cases var with
  | none => exact nomatch (reads_pure.mp read).1
  | some var =>
    obtain ⟨name, text₂, apart₂⟩ := readName_sound named
    obtain ⟨_, c₃, skipped₂, read⟩ := reads_bind.mp read
    obtain ⟨w₂, blanks₂, text₃⟩ := skipBlanks_sound skipped₂
    obtain ⟨keyword, c₄, spelled, read⟩ := reads_bind.mp read
    rcases keyword with _ | (_ | _ | _ | _ | _ | _ | _)
    case some.within =>
      obtain ⟨text₄, apart₃⟩ := readKeyword_sound spelled
      obtain ⟨_, c₅, skipped₃, read⟩ := reads_bind.mp read
      obtain ⟨w₃, blanks₃, text₅⟩ := skipBlanks_sound skipped₃
      obtain ⟨path, c₆, followed, read⟩ := reads_bind.mp read
      cases path with
      | none => exact nomatch (reads_pure.mp read).1
      | some path =>
        obtain ⟨text, names, text₆⟩ := readPath_sound followed
        obtain ⟨same, w₄, blanks₄, text₇⟩ := readBareTag_sound read
        rw [text₃, text₄, ← List.append_assoc] at apart₂
        rw [text₅, text₆, ← List.append_assoc] at apart₃
        rw [same]
        refine ⟨_, .loop blanks₁ name blanks₂ apart₂.front blanks₃ apart₃.front names blanks₄, ?_⟩
        rw [text₁, text₂, text₃, text₄, text₅, text₆, text₇]
        simp only [List.append_assoc]
    all_goals exact nomatch (reads_pure.mp read).1

/-- A tag with a condition that is read is written as one. -/
theorem readCondition_sound {lexeme : Path → Lexeme} {start : Pos} {c d : Cursor} {token : Token}
    (read : (readCondition lexeme start).Reads c (some token) d) :
    ∃ path w₁ w₂ text, token.lexeme = lexeme path ∧ Blanks w₁ ∧ PathText text path.parts ∧
      Blanks w₂ ∧ c.rest = w₁ ++ (text ++ (w₂ ++ ['%', '\x7d'])) ++ d.rest := by
  obtain ⟨_, c₁, skipped, read⟩ := reads_bind.mp read
  obtain ⟨w₁, blanks₁, text₁⟩ := skipBlanks_sound skipped
  obtain ⟨path, c₂, followed, read⟩ := reads_bind.mp read
  cases path with
  | none => exact nomatch (reads_pure.mp read).1
  | some path =>
    obtain ⟨text, names, text₂⟩ := readPath_sound followed
    obtain ⟨same, w₂, blanks₂, text₃⟩ := readBareTag_sound read
    refine ⟨path, w₁, w₂, text, same, blanks₁, names, blanks₂, ?_⟩
    rw [text₁, text₂, text₃]
    simp only [List.append_assoc]

/-- What is read behind a keyword is written as the grammar says. -/
theorem readTag_sound {start : Pos} {keyword : Keyword} {c d : Cursor} {token : Token}
    (read : (readTag start keyword).Reads c (some token) d) :
    ∃ body, TagBody keyword body token.lexeme ∧ c.rest = body ++ d.rest := by
  cases keyword with
  | loop => exact readLoopHead_sound read
  | within => exact nomatch (reads_pure.mp read).1
  | condition =>
    obtain ⟨path, w₁, w₂, text, same, blanks₁, names, blanks₂, whole⟩ := readCondition_sound read
    exact ⟨_, same ▸ .condition blanks₁ names blanks₂, whole⟩
  | elseCondition =>
    obtain ⟨path, w₁, w₂, text, same, blanks₁, names, blanks₂, whole⟩ := readCondition_sound read
    exact ⟨_, same ▸ .elseCondition blanks₁ names blanks₂, whole⟩
  | endLoop =>
    obtain ⟨same, w, blanks, whole⟩ := readBareTag_sound read
    exact ⟨_, same ▸ .endLoop blanks, whole⟩
  | otherwise =>
    obtain ⟨same, w, blanks, whole⟩ := readBareTag_sound read
    exact ⟨_, same ▸ .otherwise blanks, whole⟩
  | endCondition =>
    obtain ⟨same, w, blanks, whole⟩ := readBareTag_sound read
    exact ⟨_, same ▸ .endCondition blanks, whole⟩

/-- Behind blanks, a percent sign or a closing brace ends a path. -/
theorem path_ends {w : List Char} (blanks : Blanks w) (close : Char)
    (closes : close ∈ ['.', '%', '\x7b', '\x7d']) (other : close ≠ '.') (tail : List Char) :
    Apart isIdentifierContinue (w ++ close :: tail) ∧ (w ++ close :: tail).head? ≠ some '.' := by
  have apart : Apart isIdentifierContinue (close :: tail) :=
    apart_cons (apart_of_markup closes).2.2 tail
  refine ⟨apart_blanks (fun _ blank => (apart_of_isBlank blank).2) blanks apart, ?_⟩
  cases w with
  | nil => simpa using other
  | cons first w =>
    rintro same
    obtain rfl := Option.some.inj same
    have blank := blanks '.' (by simp)
    rw [(apart_of_markup (by simp)).1] at blank
    contradiction

/-- Paths of the same names are the same but for their places. -/
theorem mapSpan_eq_of_parts {path path' : Path} (same : path.parts = path'.parts) (span : Span) :
    path.mapSpan (fun _ => span) = path'.mapSpan fun _ => span := by
  obtain ⟨root, steps, _⟩ := path
  obtain ⟨root', steps', _⟩ := path'
  obtain ⟨rfl, rfl⟩ := List.cons.inj same
  rfl

/-- Tags that hold nothing but paths of the same names say the same. -/
theorem bare_eq_of_parts {lexeme : Path → Lexeme}
    (moved : ∀ f path, (lexeme path).mapSpans f = lexeme (path.mapSpan f)) {path path' : Path}
    (same : path.parts = path'.parts) : (lexeme path).bare = (lexeme path').bare := by
  rw [Lexeme.bare, Lexeme.bare, moved, moved, mapSpan_eq_of_parts same]

/-- A tag with a condition is read as it may be written. -/
theorem readCondition_complete {lexeme : Path → Lexeme}
    (moved : ∀ f path, (lexeme path).mapSpans f = lexeme (path.mapSpan f)) (start : Pos)
    {w₁ w₂ text : List Char} {path : Path} (blanks₁ : Blanks w₁)
    (names : PathText text path.parts) (blanks₂ : Blanks w₂) {c : Cursor} {tail : List Char}
    (ahead : c.rest = w₁ ++ (text ++ (w₂ ++ ['%', '\x7d'])) ++ tail) :
    ∃ d token, (readCondition lexeme start).Reads c (some token) d ∧
      token.lexeme.bare = (lexeme path).bare ∧ d.rest = tail := by
  simp only [List.append_assoc] at ahead
  obtain ⟨c₁, skipped, rest₁⟩ := skipBlanks_complete blanks₁ (names.apart _) ahead
  obtain ⟨apart, last⟩ := path_ends blanks₂ '%' (by simp) (by decide) ('\x7d' :: tail)
  obtain ⟨c₂, path', followed, same, rest₂⟩ := readPath_complete names apart last rest₁
  obtain ⟨d, token, read, found, rest⟩ := readBareTag_complete (lexeme path') start blanks₂ rest₂
  refine ⟨d, token, ?_, ?_, rest⟩
  · exact reads_bind.mpr ⟨(), c₁, skipped, reads_bind.mpr ⟨some path', c₂, followed, read⟩⟩
  · rw [found]
    exact bare_eq_of_parts moved same

/-- A keyword starts with no blank. -/
theorem apart_spelling (keyword : Keyword) (back : List Char) :
    Apart isBlank (keyword.spelling.toList ++ back) := by
  intro next first
  cases keyword
  all_goals
    obtain rfl := Option.some.inj first
    decide +kernel

/-- A loop head is read as it may be written. -/
theorem readLoopHead_complete (start : Pos) {body : List Char} {lexeme : Lexeme}
    (written : TagBody .loop body lexeme) {c : Cursor} {tail : List Char}
    (ahead : c.rest = body ++ tail) :
    ∃ d token, (readLoopHead start).Reads c (some token) d ∧ token.lexeme.bare = lexeme.bare ∧
      d.rest = tail := by
  cases written with
  | @loop w₁ w₂ w₃ w₄ text var path blanks₁ named blanks₂ apart₂ blanks₃ apart₃ names blanks₄ =>
    simp only [List.append_assoc] at ahead
    obtain ⟨c₁, skipped₁, rest₁⟩ := skipBlanks_complete blanks₁ (apart_of_isName named _) ahead
    have apart₂' := apart₂.append (by simp [Keyword.spelling])
      (w₃ ++ (text ++ (w₄ ++ (['%', '\x7d'] ++ tail))))
    rw [List.append_assoc] at apart₂'
    obtain ⟨c₂, ident, read₂, name, rest₂⟩ := readName_complete named apart₂' rest₁
    obtain ⟨c₃, skipped₃, rest₃⟩ := skipBlanks_complete blanks₂ (apart_spelling _ _) rest₂
    have apart₃' := apart₃.append (by simp [names.ne_nil]) (w₄ ++ (['%', '\x7d'] ++ tail))
    rw [List.append_assoc] at apart₃'
    obtain ⟨c₄, spelled, rest₄⟩ := readKeyword_complete .within apart₃' rest₃
    obtain ⟨c₅, skipped₅, rest₅⟩ := skipBlanks_complete blanks₃ (names.apart _) rest₄
    obtain ⟨apart₄, last⟩ :=
      path_ends blanks₄ '%' (by simp) (by decide) ('\x7d' :: tail)
    obtain ⟨c₆, path', followed, parts, rest₆⟩ := readPath_complete names apart₄ last rest₅
    obtain ⟨d, token, read, found, rest⟩ :=
      readBareTag_complete (.forStart ident path') start blanks₄ rest₆
    refine ⟨d, token, ?_, ?_, rest⟩
    · exact reads_bind.mpr ⟨(), c₁, skipped₁, reads_bind.mpr ⟨some ident, c₂, read₂,
        reads_bind.mpr ⟨(), c₃, skipped₃, reads_bind.mpr ⟨some .within, c₄, spelled,
          reads_bind.mpr ⟨(), c₅, skipped₅, reads_bind.mpr ⟨some path', c₆, followed, read⟩⟩⟩⟩⟩⟩
    · rw [found, Lexeme.bare, Lexeme.bare, Lexeme.mapSpans, Lexeme.mapSpans,
        mapSpan_eq_of_parts parts, Ident.mapSpan, Ident.mapSpan, String.toList_inj.mp name]

/-- Behind a keyword a tag is read as it may be written. -/
theorem readTag_complete (start : Pos) {keyword : Keyword} {body : List Char} {lexeme : Lexeme}
    (written : TagBody keyword body lexeme) {c : Cursor} {tail : List Char}
    (ahead : c.rest = body ++ tail) :
    ∃ d token, (readTag start keyword).Reads c (some token) d ∧
      token.lexeme.bare = lexeme.bare ∧ d.rest = tail := by
  cases written with
  | loop blanks₁ named blanks₂ apart₂ blanks₃ apart₃ names blanks₄ =>
    exact readLoopHead_complete start
      (.loop blanks₁ named blanks₂ apart₂ blanks₃ apart₃ names blanks₄) ahead
  | condition blanks₁ names blanks₂ =>
    exact readCondition_complete (fun _ _ => rfl) start blanks₁ names blanks₂ ahead
  | elseCondition blanks₁ names blanks₂ =>
    exact readCondition_complete (fun _ _ => rfl) start blanks₁ names blanks₂ ahead
  | endLoop blanks | otherwise blanks | endCondition blanks =>
    rw [List.append_assoc] at ahead
    obtain ⟨d, token, read, found, rest⟩ := readBareTag_complete _ start blanks ahead
    exact ⟨d, token, read, by rw [found], rest⟩

/-- Literal text is no tag. -/
theorem isTag_of_readRaw {start : Pos} {c d : Cursor} {token : Token}
    (read : (readRaw start).Reads c token d) : token.lexeme.isTag = false :=
  read.1 ▸ rfl

/-- An invalid tag is no tag that was read. -/
theorem isTag_of_readInvalid {start : Pos} {c d : Cursor} {token : Token}
    (read : (readInvalid start).Reads c token d) : token.lexeme.isTag = false :=
  read.1 ▸ rfl

/-- Behind two braces, a tag that is read is the place of a value, written as the grammar says. -/
theorem readInterpolation_sound {start : Pos} {c d : Cursor} {token : Token}
    (read : (readInterpolation start).Reads c token d) (tag : token.lexeme.isTag = true) :
    ∃ path w₁ w₂ text, token.lexeme = .use path ∧ Blanks w₁ ∧ PathText text path.parts ∧
      Blanks w₂ ∧ c.rest.tail = w₁ ++ (text ++ (w₂ ++ ['\x7d', '\x7d'])) ++ d.rest := by
  obtain ⟨_, _, ⟨rfl, rfl⟩, read⟩ := reads_bind.mp read
  obtain ⟨_, c₁, skipped, read⟩ := reads_bind.mp read
  obtain ⟨w₁, blanks₁, text₁⟩ := skipBlanks_sound skipped
  obtain ⟨path, c₂, followed, read⟩ := reads_bind.mp read
  cases path with
  | none => exact absurd tag (Bool.eq_false_iff.mp (isTag_of_readRaw read))
  | some path =>
    obtain ⟨text, names, text₂⟩ := readPath_sound followed
    obtain ⟨_, c₃, skipped', read⟩ := reads_bind.mp read
    obtain ⟨w₂, blanks₂, text₃⟩ := skipBlanks_sound skipped'
    obtain ⟨closed, c₄, accepted, read⟩ := reads_bind.mp read
    cases closed with
    | false => exact absurd tag (Bool.eq_false_iff.mp (isTag_of_readRaw read))
    | true =>
      obtain ⟨_, _, ⟨rfl, rfl⟩, read⟩ := reads_bind.mp read
      obtain ⟨rfl, rfl⟩ := reads_pure.mp read
      refine ⟨path, w₁, w₂, text, rfl, blanks₁, names, blanks₂, ?_⟩
      rw [run_advance, Cursor.rest_advance] at text₁
      rw [text₁, text₂, text₃, acceptAll_sound accepted]
      simp only [List.append_assoc]
      rfl

/-- Behind a brace and a percent sign, a tag that is read is written as the grammar says. -/
theorem readStatement_sound {start : Pos} {c d : Cursor} {token : Token}
    (read : (readStatement start).Reads c token d) (tag : token.lexeme.isTag = true) :
    ∃ w keyword body, Blanks w ∧ Apart isLetter body ∧ TagBody keyword body token.lexeme ∧
      c.rest.tail = w ++ (keyword.spelling.toList ++ body) ++ d.rest := by
  obtain ⟨_, _, ⟨rfl, rfl⟩, read⟩ := reads_bind.mp read
  obtain ⟨_, c₁, skipped, read⟩ := reads_bind.mp read
  obtain ⟨w, blanks, text₁⟩ := skipBlanks_sound skipped
  obtain ⟨keyword, c₂, spelled, read⟩ := reads_bind.mp read
  cases keyword with
  | none => exact absurd tag (Bool.eq_false_iff.mp (isTag_of_readInvalid read))
  | some keyword =>
    obtain ⟨text₂, apart⟩ := readKeyword_sound spelled
    obtain ⟨found, c₃, followed, read⟩ := reads_bind.mp read
    cases found with
    | none => exact absurd tag (Bool.eq_false_iff.mp (isTag_of_readInvalid read))
    | some found =>
      obtain ⟨rfl, rfl⟩ := reads_pure.mp read
      obtain ⟨body, written, text₃⟩ := readTag_sound followed
      rw [text₃] at apart
      refine ⟨w, keyword, body, blanks, apart.front, written, ?_⟩
      rw [run_advance, Cursor.rest_advance] at text₁
      rw [text₁, text₂, text₃]
      simp only [List.append_assoc]

/-- Behind a brace, a tag that is read is written as the grammar says. -/
theorem readAfterBrace_sound {start : Pos} {c d : Cursor} {token : Token}
    (read : (readAfterBrace start).Reads c token d) (tag : token.lexeme.isTag = true) :
    ∃ text, TagText ('\x7b' :: text) token.lexeme ∧ c.rest = text ++ d.rest := by
  obtain ⟨_, _, ⟨rfl, rfl⟩, read⟩ := reads_bind.mp read
  split at read
  · next brace =>
    obtain ⟨path, w₁, w₂, text, same, blanks₁, names, blanks₂, tail⟩ :=
      readInterpolation_sound read tag
    obtain ⟨rest, whole⟩ := List.head?_eq_some_iff.mp brace
    rw [run_current?, whole, List.tail_cons] at tail
    refine ⟨'\x7b' :: (w₁ ++ (text ++ (w₂ ++ ['\x7d', '\x7d']))), ?_, ?_⟩
    · rw [same]
      exact .use blanks₁ names blanks₂
    · rw [whole, tail, List.cons_append]
  · next percent =>
    obtain ⟨w, keyword, body, blanks, apart, written, tail⟩ := readStatement_sound read tag
    obtain ⟨rest, whole⟩ := List.head?_eq_some_iff.mp percent
    rw [run_current?, whole, List.tail_cons] at tail
    refine ⟨'%' :: (w ++ (keyword.spelling.toList ++ body)), .statement blanks apart written, ?_⟩
    rw [whole, tail, List.cons_append]
  · exact absurd tag (Bool.eq_false_iff.mp (isTag_of_readRaw read))

/-- A tag that is read is written as the grammar says. -/
theorem readToken_sound {c d : Cursor} {token : Token} (read : readToken.Reads c token d)
    (tag : token.lexeme.isTag = true) :
    ∃ text, TagText text token.lexeme ∧ c.rest = text ++ d.rest := by
  obtain ⟨_, _, ⟨rfl, rfl⟩, read⟩ := reads_bind.mp (reads_traced.mp read)
  obtain ⟨_, _, ⟨rfl, rfl⟩, read⟩ := reads_bind.mp read
  split at read
  · obtain ⟨_, _, ⟨rfl, rfl⟩, read⟩ := reads_bind.mp read
    obtain ⟨rfl, -⟩ := reads_pure.mp read
    contradiction
  · next brace =>
    obtain ⟨_, _, ⟨rfl, rfl⟩, read⟩ := reads_bind.mp read
    obtain ⟨rest, whole⟩ := List.head?_eq_some_iff.mp brace
    change c.rest = _ at whole
    obtain ⟨text, written, tail⟩ := readAfterBrace_sound read tag
    refine ⟨'\x7b' :: text, written, ?_⟩
    change c.advance.rest = _ at tail
    rw [Cursor.rest_advance, whole, List.tail_cons] at tail
    rw [whole, tail, List.cons_append]
  · exact absurd tag (Bool.eq_false_iff.mp (isTag_of_readRaw read))

/-- The place of a value is read as it may be written. -/
theorem readInterpolation_complete (start : Pos) {w₁ w₂ text : List Char} {path : Path}
    (blanks₁ : Blanks w₁) (names : PathText text path.parts) (blanks₂ : Blanks w₂) {c : Cursor}
    {first : Char} {tail : List Char}
    (ahead : c.rest = first :: (w₁ ++ (text ++ (w₂ ++ (['\x7d', '\x7d'] ++ tail))))) :
    ∃ d token, (readInterpolation start).Reads c token d ∧
      token.lexeme.bare = (Lexeme.use path).bare ∧ d.rest = tail := by
  have behind := (rest_split ahead).2
  obtain ⟨c₁, skipped₁, rest₁⟩ := skipBlanks_complete blanks₁ (names.apart _) behind
  obtain ⟨apart, last⟩ :=
    path_ends blanks₂ '\x7d' (by simp) (by decide) ('\x7d' :: tail)
  obtain ⟨c₂, path', followed, same, rest₂⟩ := readPath_complete names apart last rest₁
  have apart' : Apart isBlank (['\x7d', '\x7d'] ++ tail) :=
    apart_cons (apart_of_markup (by simp)).1 _
  obtain ⟨c₃, skipped₃, rest₃⟩ := skipBlanks_complete blanks₂ apart' rest₂
  obtain ⟨d, accepted, rest⟩ := acceptAll_complete _ rest₃
  have meaning : (Lexeme.use path').bare = (Lexeme.use path).bare :=
    bare_eq_of_parts (fun _ _ => rfl) same
  refine ⟨d, ⟨.use path', d.since start⟩, ?_, meaning, rest⟩
  refine reads_bind.mpr ⟨(), c.advance, ⟨rfl, rfl⟩, reads_bind.mpr ⟨(), c₁, skipped₁, ?_⟩⟩
  refine reads_bind.mpr ⟨some path', c₂, followed, reads_bind.mpr ⟨(), c₃, skipped₃, ?_⟩⟩
  exact reads_bind.mpr ⟨true, d, accepted, ⟨rfl, rfl⟩⟩

/-- A statement tag is read as it may be written. -/
theorem readStatement_complete (start : Pos) {w body : List Char} {keyword : Keyword}
    {lexeme : Lexeme} (blanks : Blanks w) (apart : Apart isLetter body) (nonempty : body ≠ [])
    (written : TagBody keyword body lexeme) {c : Cursor} {first : Char} {tail : List Char}
    (ahead : c.rest = first :: (w ++ (keyword.spelling.toList ++ (body ++ tail)))) :
    ∃ d token, (readStatement start).Reads c token d ∧ token.lexeme.bare = lexeme.bare ∧
      d.rest = tail := by
  have behind := (rest_split ahead).2
  obtain ⟨c₁, skipped, rest₁⟩ := skipBlanks_complete blanks (apart_spelling keyword _) behind
  obtain ⟨c₂, spelled, rest₂⟩ := readKeyword_complete keyword (apart.append nonempty tail) rest₁
  obtain ⟨d, token, followed, same, rest⟩ := readTag_complete start written rest₂
  refine ⟨d, token, ?_, same, rest⟩
  refine reads_bind.mpr ⟨(), c.advance, ⟨rfl, rfl⟩, reads_bind.mpr ⟨(), c₁, skipped, ?_⟩⟩
  refine reads_bind.mpr ⟨some keyword, c₂, spelled, ?_⟩
  exact reads_bind.mpr ⟨some token, d, followed, ⟨rfl, rfl⟩⟩

/-- Behind an opening brace that is passed, what follows it makes the token. -/
theorem readToken_of_brace {c d : Cursor} {token : Token} {rest : List Char}
    (brace : c.rest = '\x7b' :: rest)
    (read : (readAfterBrace c.pos).Reads c.advance token d) : readToken.Reads c token d := by
  have next := (rest_split brace).1
  refine reads_traced.mpr (reads_bind.mpr ⟨c.pos, c, ⟨rfl, rfl⟩, ?_⟩)
  refine reads_bind.mpr ⟨some '\x7b', c, ⟨next, rfl⟩, ?_⟩
  exact reads_bind.mpr ⟨(), c.advance, ⟨rfl, rfl⟩, read⟩

/-- A tag is read as it may be written, whatever follows. -/
theorem readToken_complete {text : List Char} {lexeme : Lexeme} (written : TagText text lexeme)
    {c : Cursor} {tail : List Char} (ahead : c.rest = text ++ tail) :
    ∃ d token, readToken.Reads c token d ∧ token.lexeme.bare = lexeme.bare ∧ d.rest = tail := by
  cases written with
  | @use w₁ w₂ text path blanks₁ names blanks₂ =>
    simp only [List.cons_append, List.append_assoc] at ahead
    have behind := (rest_split ahead).2
    obtain ⟨d, token, read, same, rest⟩ :=
      readInterpolation_complete c.pos blanks₁ names blanks₂ behind
    refine ⟨d, token, readToken_of_brace ahead ?_, same, rest⟩
    exact reads_bind.mpr ⟨some '\x7b', c.advance, ⟨(rest_split behind).1, rfl⟩, read⟩
  | @statement w body keyword _ blanks apart follows =>
    simp only [List.cons_append, List.append_assoc] at ahead
    have behind := (rest_split ahead).2
    obtain ⟨d, token, read, same, rest⟩ :=
      readStatement_complete c.pos blanks apart follows.ne_nil follows behind
    refine ⟨d, token, readToken_of_brace ahead ?_, same, rest⟩
    exact reads_bind.mpr ⟨some '%', c.advance, ⟨(rest_split behind).1, rfl⟩, read⟩

end Scan

end TextTemplate.Markup
