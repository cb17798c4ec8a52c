import TextTemplate.Proofs.TagGrammar
import TextTemplate.Proofs.Tiling

/-!
# Names, keywords and paths are read as they may be written

Every reader of a part of a tag is shown to be sound and complete: what it reads is written as the
grammar of tags says, and what is written so is read. Names and keywords are the longest runs of
their characters, so what follows them has to be apart from these.
-/

namespace TextTemplate.Markup

open Text Unicode

/-- Skipping a class of characters passes those in front of a text that is apart from the class. -/
theorem Apart.dropWhile_append {member : Char → Bool} {tail : List Char}
    (apart : Apart member tail) {front : List Char} (inside : ∀ c ∈ front, member c = true) :
    (front ++ tail).dropWhile member = tail := by
  rw [List.dropWhile_append_of_pos inside]
  cases tail with
  | nil => rfl
  | cons first tail => simp [apart first rfl]

/-- What is left when a class of characters has been skipped is apart from the class. -/
theorem apart_dropWhile (member : Char → Bool) (text : List Char) :
    Apart member (text.dropWhile member) := by
  intro next first
  have stopped := List.head?_dropWhile_not member text
  rw [first] at stopped
  simpa using stopped

/-- The first character in front of a cursor is the current one, and the others follow it. -/
theorem rest_split {c : Cursor} {first : Char} {more : List Char} (text : c.rest = first :: more) :
    c.current? = some first ∧ c.advance.rest = more := by
  rw [Cursor.current?, Cursor.rest_advance, text]
  exact ⟨rfl, rfl⟩

/-- A text starts with a character of the class or is apart from it. -/
theorem apart_or_starts (member : Char → Bool) (text : List Char) :
    Apart member text ∨ ∃ first more, text = first :: more ∧ member first = true := by
  cases text with
  | nil => exact .inl nofun
  | cons first more =>
    cases inside : member first with
    | true => exact .inr ⟨first, more, rfl, inside⟩
    | false => exact .inl (apart_cons inside more)

namespace Scan

variable {α β : Type}

/-- In front of the cursor `c` the scan reads `value`, and it stops at the cursor `d`. -/
def Reads (scan : Scan α) (c : Cursor) (value : α) (d : Cursor) : Prop :=
  (scan.run c).value = value ∧ (scan.run c).cursor = d

/-- Every scan reads what it comes back with. -/
theorem reads_run (scan : Scan α) (c : Cursor) :
    scan.Reads c (scan.run c).value (scan.run c).cursor :=
  ⟨rfl, rfl⟩

/-- Scans in a row read what the first one reads and then what the second one does. -/
theorem reads_bind {first : Scan α} {next : α → Scan β} {c e : Cursor} {value : β} :
    (first >>= next).Reads c value e ↔
      ∃ middle d, first.Reads c middle d ∧ (next middle).Reads d value e := by
  constructor
  · rintro ⟨rfl, rfl⟩
    exact ⟨_, _, first.reads_run c, reads_run _ _⟩
  · rintro ⟨_, _, ⟨rfl, rfl⟩, rfl, rfl⟩
    exact ⟨rfl, rfl⟩

/-- A value that is given is read from nothing. -/
theorem reads_pure {value result : α} {c d : Cursor} :
    (pure value : Scan α).Reads c result d ↔ value = result ∧ c = d :=
  Iff.rfl

/-- Tracing does not change what is read. -/
theorem reads_traced {reader : Reader} {outcome : α → Outcome} {scan : Scan α} {c d : Cursor}
    {value : α} : (scan.traced reader outcome).Reads c value d ↔ scan.Reads c value d :=
  Iff.rfl

/-- Skipping blanks passes blanks and stops in front of what is none. -/
theorem skipBlanks_sound {c d : Cursor} {value : Unit} (read : skipBlanks.Reads c value d) :
    ∃ w, Blanks w ∧ c.rest = w ++ d.rest := by
  obtain ⟨-, rfl⟩ := read
  refine ⟨c.rest.takeWhile isBlank, List.all_eq_true.mp List.all_takeWhile, ?_⟩
  simp [skipBlanks]

/-- Blanks in front of what is none are skipped. -/
theorem skipBlanks_complete {c : Cursor} {w tail : List Char} (blanks : Blanks w)
    (apart : Apart isBlank tail) (text : c.rest = w ++ tail) :
    ∃ d, skipBlanks.Reads c () d ∧ d.rest = tail := by
  refine ⟨c.skipWhile isBlank, ⟨rfl, rfl⟩, ?_⟩
  rw [Cursor.rest_skipWhile, text, apart.dropWhile_append blanks]

/-- Characters that are accepted are the expected ones. -/
theorem acceptAll_sound {expected : List Char} {c d : Cursor}
    (read : (acceptAll expected).Reads c true d) : c.rest = expected ++ d.rest := by
  induction expected generalizing c with
  | nil =>
    obtain ⟨-, rfl⟩ := read
    rfl
  | cons first more ih =>
    obtain ⟨next, _, ⟨rfl, rfl⟩, read⟩ := reads_bind.mp read
    split at read
    · next accepted =>
      obtain ⟨_, _, ⟨rfl, rfl⟩, read⟩ := reads_bind.mp read
      obtain ⟨tail, whole⟩ := List.head?_eq_some_iff.mp accepted
      have rest : c.advance.rest = more ++ d.rest := ih read
      rw [Cursor.rest_advance, whole, List.tail_cons] at rest
      rw [whole, rest, List.cons_append]
    · obtain ⟨refused, -⟩ := reads_pure.mp read
      contradiction

/-- The expected characters are accepted. -/
theorem acceptAll_complete (expected : List Char) {c : Cursor} {tail : List Char}
    (text : c.rest = expected ++ tail) :
    ∃ d, (acceptAll expected).Reads c true d ∧ d.rest = tail := by
  induction expected generalizing c with
  | nil => exact ⟨c, ⟨rfl, rfl⟩, text⟩
  | cons first more ih =>
    obtain ⟨accepted, behind⟩ := rest_split text
    obtain ⟨d, read, rest⟩ := ih behind
    refine ⟨d, reads_bind.mpr ⟨some first, c, ⟨accepted, rfl⟩, ?_⟩, rest⟩
    rw [if_pos rfl]
    exact reads_bind.mpr ⟨(), c.advance, ⟨rfl, rfl⟩, read⟩

/-- A keyword that is read is written as it is spelled, and no letter follows it. -/
theorem readKeyword_sound {c d : Cursor} {keyword : Keyword}
    (read : readKeyword.Reads c (some keyword) d) :
    c.rest = keyword.spelling.toList ++ d.rest ∧ Apart isLetter d.rest := by
  obtain ⟨value, rfl⟩ := read
  change Keyword.ofSpelling? ((c.skipWhile isLetter).since c.pos).raw = some keyword at value
  change c.rest = _ ++ (c.skipWhile isLetter).rest ∧ Apart isLetter (c.skipWhile isLetter).rest
  rw [← Keyword.ofSpelling?_eq_some_iff.mp value, Cursor.rest_skipWhile]
  refine ⟨?_, apart_dropWhile _ _⟩
  have parts := (Cursor.onward_skipWhile isLetter c).since_raw
  rwa [Cursor.rest_skipWhile] at parts

/-- A keyword is spelled with letters. -/
theorem isLetter_of_spelling (keyword : Keyword) :
    ∀ c ∈ keyword.spelling.toList, isLetter c = true := by
  have checked : keyword.spelling.toList.all isLetter = true := by
    cases keyword <;> decide +kernel
  exact List.all_eq_true.mp checked

/-- A keyword that no letter follows is read. -/
theorem readKeyword_complete (keyword : Keyword) {c : Cursor} {tail : List Char}
    (apart : Apart isLetter tail) (text : c.rest = keyword.spelling.toList ++ tail) :
    ∃ d, readKeyword.Reads c (some keyword) d ∧ d.rest = tail := by
  have rest : (c.skipWhile isLetter).rest = tail := by
    rw [Cursor.rest_skipWhile, text, apart.dropWhile_append (isLetter_of_spelling keyword)]
  refine ⟨c.skipWhile isLetter, ⟨?_, rfl⟩, rest⟩
  have parts := (Cursor.onward_skipWhile isLetter c).since_raw
  rw [rest, text] at parts
  have word : ((c.skipWhile isLetter).since c.pos).raw = keyword.spelling :=
    String.toList_inj.mp (List.append_cancel_right parts).symm
  change Keyword.ofSpelling? ((c.skipWhile isLetter).since c.pos).raw = some keyword
  exact Keyword.ofSpelling?_eq_some_iff.mpr word

/-- What the reader of names does in front of a character that starts a name. -/
theorem readName_of_start {c : Cursor} {first : Char} {more : List Char}
    (text : c.rest = first :: more) (starts : isIdentifierStart first = true) :
    ∃ d ident, readName.Reads c (some ident) d ∧
      ident.text.toList = first :: more.takeWhile isIdentifierContinue ∧
      d.rest = more.dropWhile isIdentifierContinue := by
  obtain ⟨next, behind⟩ := rest_split text
  have onward := (Cursor.onward_advance c).trans
    (Cursor.onward_skipWhile isIdentifierContinue c.advance)
  have rest : (c.advance.skipWhile isIdentifierContinue).rest =
      more.dropWhile isIdentifierContinue := by
    rw [Cursor.rest_skipWhile, behind]
  have parts := onward.since_raw
  have split : first :: more =
      first :: more.takeWhile isIdentifierContinue ++ more.dropWhile isIdentifierContinue := by
    rw [List.cons_append, List.takeWhile_append_dropWhile]
  rw [rest, text, split] at parts
  have name := (List.append_cancel_right parts).symm
  refine ⟨_, ⟨_, (c.advance.skipWhile isIdentifierContinue).since c.pos⟩, ⟨?_, ?_⟩, name, rest⟩
  · simp [readName, next, starts]
  · simp [readName, next, starts]

/-- In front of any other character no name is read. -/
theorem readName_of_no_start {c : Cursor} (apart : Apart isIdentifierStart c.rest) :
    readName.Reads c none c := by
  cases next : c.current? with
  | none => exact ⟨by simp [readName, next], by simp [readName, next]⟩
  | some first =>
    have other := apart first next
    exact ⟨by simp [readName, next, other], by simp [readName, next, other]⟩

/-- Where no name is read, nothing is passed, and no name starts there. -/
theorem readName_sound_none {c d : Cursor} (read : readName.Reads c none d) :
    d = c ∧ Apart isIdentifierStart c.rest := by
  rcases apart_or_starts isIdentifierStart c.rest with apart | ⟨first, more, text, starts⟩
  · exact ⟨read.2.symm.trans (readName_of_no_start apart).2, apart⟩
  · obtain ⟨d', ident, found, -, -⟩ := readName_of_start text starts
    exact nomatch read.1.symm.trans found.1

/-- A name that is read is a name, and nothing that continues it follows. -/
theorem readName_sound {c d : Cursor} {ident : Ident} (read : readName.Reads c (some ident) d) :
    isName ident.text.toList = true ∧ c.rest = ident.text.toList ++ d.rest ∧
      Apart isIdentifierContinue d.rest := by
  rcases apart_or_starts isIdentifierStart c.rest with apart | ⟨first, more, text, starts⟩
  · exact nomatch read.1.symm.trans (readName_of_no_start apart).1
  · obtain ⟨d', ident', found, name, rest⟩ := readName_of_start text starts
    obtain rfl : d = d' := read.2.symm.trans found.2
    obtain rfl := Option.some.inj (read.1.symm.trans found.1)
    rw [name, rest, text]
    refine ⟨?_, ?_, apart_dropWhile _ _⟩
    · simp [isName, starts]
    · rw [List.cons_append, List.takeWhile_append_dropWhile]

/-- A name that nothing continues is read. -/
theorem readName_complete {c : Cursor} {name tail : List Char} (named : isName name = true)
    (apart : Apart isIdentifierContinue tail) (text : c.rest = name ++ tail) :
    ∃ d ident, readName.Reads c (some ident) d ∧ ident.text.toList = name ∧ d.rest = tail := by
  cases name with
  | nil => contradiction
  | cons first more =>
    simp only [isName, Bool.and_eq_true, List.all_eq_true] at named
    rw [List.cons_append] at text
    obtain ⟨d, ident, read, found, rest⟩ := readName_of_start text named.1
    refine ⟨d, ident, read, ?_, ?_⟩
    · have whole : first :: (more ++ tail).takeWhile isIdentifierContinue ++
          (more ++ tail).dropWhile isIdentifierContinue = first :: more ++ tail := by
        rw [List.cons_append, List.takeWhile_append_dropWhile, List.cons_append]
      rw [apart.dropWhile_append named.2] at whole
      rw [found, List.append_cancel_right whole]
    · rw [rest, apart.dropWhile_append named.2]

/-- Where no names are read, nothing is passed. -/
theorem readNames_sound_nil {c d : Cursor} (read : readNames.Reads c [] d) : d = c := by
  obtain ⟨value, rfl⟩ := read
  change (namesAt c).value = [] at value
  change (namesAt c).cursor = c
  cases found : (readName.run c).value with
  | none =>
    rw [namesAt_of_none found]
    exact (readName_sound_none ⟨found, rfl⟩).1
  | some ident =>
    by_cases dot : (readName.run c).cursor.current? = some '.'
    · rw [namesAt_of_dot found dot] at value
      contradiction
    · rw [namesAt_of_no_dot found dot] at value
      contradiction

/-- Names that are read, if there are any, are written as a path. -/
theorem readNames_sound {c d : Cursor} {names : List String} (read : readNames.Reads c names d)
    (nonempty : names ≠ []) : ∃ text, PathText text names ∧ c.rest = text ++ d.rest := by
  obtain ⟨rfl, rfl⟩ := read
  change (namesAt c).value ≠ [] at nonempty
  change ∃ text, PathText text (namesAt c).value ∧ c.rest = text ++ (namesAt c).cursor.rest
  fun_induction namesAt c with
  | case1 c name absent => contradiction
  | case2 c name ident found dot more ih =>
    obtain ⟨named, text, -⟩ := readName_sound ⟨found, rfl⟩
    obtain ⟨tail, split⟩ := List.head?_eq_some_iff.mp dot
    have behind := (rest_split split).2
    change c.rest = ident.text.toList ++ name.cursor.rest at text
    by_cases last : more.value = []
    · have stayed : more.cursor = name.cursor.advance := readNames_sound_nil ⟨last, rfl⟩
      refine ⟨ident.text.toList ++ ['.'], ?_, ?_⟩
      · rw [last]
        exact .dotted named
      · rw [text, split, stayed, behind, List.append_assoc]
        rfl
    · obtain ⟨text', written, rest'⟩ := ih last
      refine ⟨_, .step named written, ?_⟩
      rw [text, split, ← behind, rest', List.append_assoc, List.cons_append]
  | case3 c name ident found last =>
    obtain ⟨named, text, -⟩ := readName_sound ⟨found, rfl⟩
    exact ⟨_, .last named, text⟩

/-- Behind a name that is read and a dot, the names read further on are read in a row with it. -/
theorem readNames_step {c d e : Cursor} {ident : Ident} {tail : List Char} {names : List String}
    (read : readName.Reads c (some ident) d) (dot : d.rest = '.' :: tail)
    (more : readNames.Reads d.advance names e) : readNames.Reads c (ident.text :: names) e := by
  obtain ⟨found, rfl⟩ := read
  obtain ⟨rfl, rfl⟩ := more
  have next := (rest_split dot).1
  change (namesAt c).value = _ ∧ (namesAt c).cursor = _
  rw [namesAt_of_dot found next]
  exact ⟨rfl, rfl⟩

/-- A name that is read and that no dot follows is the last one. -/
theorem readNames_last {c d : Cursor} {ident : Ident} (read : readName.Reads c (some ident) d)
    (last : d.rest.head? ≠ some '.') : readNames.Reads c [ident.text] d := by
  obtain ⟨found, rfl⟩ := read
  change (namesAt c).value = _ ∧ (namesAt c).cursor = _
  rw [namesAt_of_no_dot found last]
  exact ⟨rfl, rfl⟩

/-- Where no name starts there are no names. -/
theorem readNames_nil {c : Cursor} (apart : Apart isIdentifierStart c.rest) :
    readNames.Reads c [] c := by
  obtain ⟨absent, stayed⟩ := readName_of_no_start apart
  change (namesAt c).value = _ ∧ (namesAt c).cursor = _
  rw [namesAt_of_none absent]
  exact ⟨rfl, stayed⟩

/-- Names written as a path are read where neither a name nor a dot goes on. -/
theorem readNames_complete {names : List String} {text : List Char} (written : PathText text names)
    {c : Cursor} {tail : List Char} (apart : Apart isIdentifierContinue tail)
    (last : tail.head? ≠ some '.') (ahead : c.rest = text ++ tail) :
    ∃ d, readNames.Reads c names d ∧ d.rest = tail := by
  have dot_apart (more : List Char) : Apart isIdentifierContinue ('.' :: more) :=
    apart_cons (apart_of_markup (by simp)).2.2 more
  induction written generalizing c with
  | last named =>
    obtain ⟨d, ident, read, name, rest⟩ := readName_complete named apart ahead
    obtain rfl := String.toList_inj.mp name
    exact ⟨d, readNames_last read (rest ▸ last), rest⟩
  | dotted named =>
    rw [List.append_assoc] at ahead
    obtain ⟨d, ident, read, name, rest⟩ := readName_complete named (dot_apart tail) ahead
    obtain rfl := String.toList_inj.mp name
    have behind := (rest_split rest).2
    have ended : Apart isIdentifierStart d.advance.rest := by
      intro next first
      refine Bool.eq_false_iff.mpr fun starts => ?_
      have continues := isIdentifierContinue_of_start starts
      rw [apart next (behind ▸ first)] at continues
      contradiction
    exact ⟨d.advance, readNames_step read rest (readNames_nil ended), behind⟩
  | step named more ih =>
    rw [List.append_assoc] at ahead
    obtain ⟨d, ident, read, name, rest⟩ := readName_complete named (dot_apart _) ahead
    obtain rfl := String.toList_inj.mp name
    obtain ⟨e, read', rest'⟩ := ih (rest_split rest).2
    exact ⟨e, readNames_step read rest read', rest'⟩

/-- A path that is read is written as one. -/
theorem readPath_sound {c d : Cursor} {path : Path} (read : readPath.Reads c (some path) d) :
    ∃ text, PathText text path.parts ∧ c.rest = text ++ d.rest := by
  obtain ⟨_, _, ⟨rfl, rfl⟩, read⟩ := reads_bind.mp (reads_traced.mp read)
  obtain ⟨names, e, found, read⟩ := reads_bind.mp read
  cases names with
  | nil => exact nomatch (reads_pure.mp read).1
  | cons root steps =>
    obtain ⟨_, _, ⟨rfl, rfl⟩, read⟩ := reads_bind.mp read
    obtain ⟨same, rfl⟩ := reads_pure.mp read
    obtain rfl := Option.some.inj same
    exact readNames_sound found nofun

/-- A path written as one is read where neither a name nor a dot goes on. -/
theorem readPath_complete {parts : List String} {text : List Char} (written : PathText text parts)
    {c : Cursor} {tail : List Char} (apart : Apart isIdentifierContinue tail)
    (last : tail.head? ≠ some '.') (ahead : c.rest = text ++ tail) :
    ∃ d path, readPath.Reads c (some path) d ∧ path.parts = parts ∧ d.rest = tail := by
  obtain ⟨d, read, rest⟩ := readNames_complete written apart last ahead
  cases parts with
  | nil => exact absurd rfl written.names_ne_nil
  | cons root steps =>
    refine ⟨d, ⟨root, steps, d.since c.pos⟩, reads_traced.mpr ?_, rfl, rest⟩
    refine reads_bind.mpr ⟨c.pos, c, ⟨rfl, rfl⟩, reads_bind.mpr ⟨root :: steps, d, read, ?_⟩⟩
    exact ⟨rfl, rfl⟩

end Scan

end TextTemplate.Markup
