import TextTemplate.Proofs.Relocation
import TextTemplate.Proofs.Tiling

/-!
# Reading looks at one character behind what it reads

A stretch of text is read alike in any surroundings, as long as reading stops inside of it or at
its end. In the one surroundings that has to be known. In the other ones it follows where the
character behind the stretch is the same; otherwise it has to be known there, too. All that changes
are the places.
-/

namespace TextTemplate.Text

/-- Moving forward, what is left is at the end of what was left before. -/
theorem Cursor.Onward.suffix {c d : Cursor} (h : c.Onward d) : d.rest <:+ c.rest := by
  obtain ⟨passed, rest, -⟩ := h
  exact ⟨passed, rest.symm⟩

/-- Moving forward past nothing is staying in place. -/
theorem Cursor.Onward.eq_of_suffix {c d : Cursor} (h : c.Onward d) (stays : c.rest <:+ d.rest) :
    d = c := by
  obtain ⟨passed, rest, before⟩ := h
  have nothing : passed = [] := by
    have lengths := congrArg List.length rest
    rw [List.length_append] at lengths
    exact List.eq_nil_of_length_eq_zero (by have := stays.length_le; omega)
  rw [nothing] at rest before
  exact Cursor.ext before rest.symm

/-- Moving forward past a character leaves less to read. -/
theorem Cursor.Onward.not_suffix {c d : Cursor} (h : c.advance.Onward d) {first : Char}
    (more : c.current? = some first) : ¬c.rest <:+ d.rest := by
  intro stays
  obtain ⟨tail, rest⟩ := List.head?_eq_some_iff.mp more
  have longer := Nat.le_trans stays.length_le h.length_le
  rw [rest_advance, rest, List.tail_cons, List.length_cons] at longer
  omega

/-- Only of an empty text nothing is lost with its first character. -/
theorem eq_nil_of_suffix_tail {text : List Char} (stays : text <:+ text.tail) : text = [] := by
  have longer := stays.length_le
  rw [List.length_tail] at longer
  exact List.eq_nil_of_length_eq_zero (by omega)

/-- Where a class of characters is skipped no further than to a tail, the same is skipped in front
of any other tail with the same first character. -/
theorem skip_in_front {member : Char → Bool} {tail tail' : List Char}
    (next : tail.head? = tail'.head?) {ahead : List Char}
    (stays : tail <:+ (ahead ++ tail).dropWhile member) :
    (ahead ++ tail').takeWhile member = ahead.takeWhile member ∧
      (ahead ++ tail').dropWhile member = ahead.dropWhile member ++ tail' := by
  induction ahead with
  | nil =>
    cases tail with
    | nil =>
      obtain rfl : tail' = [] := List.head?_eq_none_iff.mp next.symm
      exact ⟨rfl, rfl⟩
    | cons first more =>
      obtain ⟨more', rfl⟩ := List.head?_eq_some_iff.mp next.symm
      by_cases inside : member first
      · have shorter := (List.dropWhile_suffix member (l := more)).length_le
        have longer := stays.length_le
        simp only [List.nil_append, List.dropWhile_cons, inside, if_true,
          List.length_cons] at longer
        omega
      · simp [inside]
  | cons first ahead ih =>
    by_cases inside : member first
    · simp only [List.cons_append, List.dropWhile_cons, inside, if_true] at stays
      simpa [inside] using ih stays
    · simp [inside]

end TextTemplate.Text

namespace TextTemplate.Markup

open Text

namespace Scan

/-- Passing a character first leads away from where the cursor is. -/
theorem advance_moves {α : Type} {c : Cursor} {first : Char} (more : c.current? = some first)
    (next : Unit → Scan α) : ((advance >>= next).run c).cursor ≠ c := by
  intro still
  have onward := (next ()).onward c.advance
  change ((next ()).run c.advance).cursor = c at still
  rw [still] at onward
  exact onward.not_suffix more (List.suffix_refl _)

/-- Behind the first name of a path the other names are read. -/
theorem onward_readName_namesAt (c : Cursor) :
    (readName.run c).cursor.Onward (namesAt c).cursor := by
  rw [namesAt]
  split
  · exact .refl _
  · split
    · exact (Cursor.onward_advance _).trans (onward_namesAt _)
    · exact .refl _

/-- Where no character is accepted, the answer is no. -/
theorem acceptAll_of_still {c : Cursor} {first : Char} {more : List Char}
    (still : ((acceptAll (first :: more)).run c).cursor = c) :
    ((acceptAll (first :: more)).run c).value = false := by
  by_cases accepted : c.current? = some first
  · have reads : (acceptAll (first :: more)).run c =
        (advance >>= fun _ => acceptAll more).run c := by
      simp [acceptAll, accepted]
    rw [reads] at still
    exact absurd still (advance_moves accepted _)
  · simp [acceptAll, accepted]

/-- Where no character is passed, no name is read. -/
theorem readName_of_still {c : Cursor} (still : (readName.run c).cursor = c) :
    (readName.run c).value = none := by
  refine Option.eq_none_iff_forall_ne_some.mpr fun ident found => ?_
  have shorter := readName_shorter found
  rw [still] at shorter
  exact Nat.lt_irrefl _ shorter

/-- Where no character is passed behind a brace, literal text is read. -/
theorem readAfterBrace_of_still {start : Pos} {c : Cursor}
    (still : ((readAfterBrace start).run c).cursor = c) :
    ((readAfterBrace start).run c).value = ((readRaw start).run c).value ∧
      ((readRaw start).run c).cursor = c := by
  simp only [readAfterBrace, run_bind, run_current?] at still ⊢
  split at still
  · next brace => exact absurd still (advance_moves brace _)
  · next percent => exact absurd still (advance_moves percent _)
  · exact ⟨rfl, still⟩

/-- Where no character is passed, the end of the text is read. -/
theorem readToken_of_still {c : Cursor} (still : (readToken.run c).cursor = c) :
    (readToken.run c).value = ⟨.endOfText, .empty c.pos⟩ := by
  by_cases ended : c.rest = []
  · rw [(readToken_at_end ended).1, Cursor.since_self]
  · have shorter := readToken_shorter ended
    rw [still] at shorter
    exact absurd shorter (Nat.lt_irrefl _)

end Scan

/-- A stretch of text in two surroundings: a cursor in front of it and what follows behind it, in
the one and in the other. -/
structure Transplant where
  /-- The cursor in front of the stretch. -/
  base : Cursor
  /-- The cursor in front of it in the other surroundings. -/
  base' : Cursor
  /-- What follows behind the stretch. -/
  tail : List Char
  /-- What follows behind it in the other surroundings. -/
  tail' : List Char

namespace Transplant

variable (t : Transplant) {α β α' β' : Type}

/-- Where a position of the stretch is in the other surroundings. -/
def pos : Pos → Pos := .rebased t.base.pos t.base'.pos

/-- Where a span of the stretch is in the other surroundings. -/
def span : Span → Span := .mapPlaces t.pos

/-- Two cursors at the same place of the stretch. -/
def Beside (c c' : Cursor) : Prop :=
  ∃ passed ahead : List Char, c.before = passed.reverse ++ t.base.before ∧
    c'.before = passed.reverse ++ t.base'.before ∧
    c.rest = ahead ++ t.tail ∧ c'.rest = ahead ++ t.tail'

/-- In the other surroundings reading does not leave the stretch either: what follows starts with
the same character, or the cursor `d'` behind what is read has not passed the end of the stretch. -/
def Confined (d' : Cursor) : Prop := t.tail.head? = t.tail'.head? ∨ t.tail' <:+ d'.rest

/-- Run at the same place of the stretch, and stopping no further than at its end, the second scan
stops beside the first one, with the value of the first changed by `f`. -/
def Keeps (f : α → α') (scan : Scan α) (scan' : Scan α') : Prop :=
  ∀ c c', t.Beside c c' → t.tail <:+ (scan.run c).cursor.rest →
    t.Confined (scan'.run c').cursor →
      t.Beside (scan.run c).cursor (scan'.run c').cursor ∧
        (scan'.run c').value = f (scan.run c).value

/-- The same, asked for only where the next character is the same for both scans. -/
def Agrees (f : α → α') (scan : Scan α) (scan' : Scan α') : Prop :=
  ∀ c c', t.Beside c c' → c'.current? = c.current? → t.tail <:+ (scan.run c).cursor.rest →
    t.Confined (scan'.run c').cursor →
      t.Beside (scan.run c).cursor (scan'.run c').cursor ∧
        (scan'.run c').value = f (scan.run c).value

variable {t}

/-- Where reading does not leave the stretch, it has not left it before. -/
theorem Confined.earlier {d' e' : Cursor} (confined : t.Confined e') (onward : d'.Onward e') :
    t.Confined d' :=
  confined.imp_right (·.trans onward.suffix)

/-- Cursors beside each other have their positions at the same place of the stretch. -/
theorem Beside.pos_eq {c c' : Cursor} (beside : t.Beside c c') : c'.pos = t.pos c.pos := by
  obtain ⟨passed, ahead, before, before', -, -⟩ := beside
  rw [Cursor.pos_eq_after before, Cursor.pos_eq_after before', pos, Pos.rebased_after]

/-- Cursors beside each other are behind the start of the stretch. -/
theorem Beside.base_le {c c' : Cursor} (beside : t.Beside c c') :
    t.base.pos.offset ≤ c.pos.offset := by
  obtain ⟨passed, ahead, before, -, -, -⟩ := beside
  rw [Cursor.pos_eq_after before, Pos.after_offset]
  omega

/-- Cursors beside each other are in front of the same character, unless the stretch ends there. -/
theorem Beside.current?_eq {c c' : Cursor} (beside : t.Beside c c') :
    c'.current? = c.current? ∨ c.rest = t.tail ∧ c'.rest = t.tail' := by
  obtain ⟨passed, ahead, -, -, rest, rest'⟩ := beside
  cases ahead with
  | nil => exact .inr ⟨rest, rest'⟩
  | cons first ahead =>
    rw [Cursor.current?, Cursor.current?, rest, rest']
    exact .inl rfl

/-- What follows behind the stretch lies ahead of cursors inside of it. -/
theorem Beside.tail_suffix {c c' : Cursor} (beside : t.Beside c c') :
    t.tail <:+ c.rest ∧ t.tail' <:+ c'.rest := by
  obtain ⟨passed, ahead, -, -, rest, rest'⟩ := beside
  exact ⟨⟨ahead, rest.symm⟩, ⟨ahead, rest'.symm⟩⟩

/-- A character that is passed without leaving the stretch is in front of both cursors. -/
theorem Beside.current?_eq_of_passed {c c' d : Cursor} (beside : t.Beside c c') {first : Char}
    (next : c.current? = some first) (onward : c.advance.Onward d) (stays : t.tail <:+ d.rest) :
    c'.current? = c.current? :=
  beside.current?_eq.resolve_right fun ⟨rest, _⟩ => onward.not_suffix next (rest ▸ stays)

/-- A character that is passed in the other surroundings is in front of both cursors. -/
theorem Beside.current?_eq_of_passed' {c c' d' : Cursor} (beside : t.Beside c c') {first : Char}
    (next : c'.current? = some first) (onward : c'.advance.Onward d')
    (confined : t.Confined d') : c'.current? = c.current? := by
  rcases beside.current?_eq with same | ⟨rest, rest'⟩
  · exact same
  · rcases confined with heads | stays
    · rw [Cursor.current?, Cursor.current?, rest, rest', heads]
    · exact absurd (rest' ▸ stays) (onward.not_suffix next)

/-- What is given is kept. -/
theorem Keeps.pure {f : α → α'} {value : α} {value' : α'} (same : value' = f value) :
    t.Keeps f (pure value) (pure value') :=
  fun _ _ beside _ _ => ⟨beside, same⟩

/-- Scans in a row are kept when each of them is. -/
theorem Keeps.bind {f : α → α'} {g : β → β'} {first : Scan α} {first' : Scan α'}
    {next : α → Scan β} {next' : α' → Scan β'} (kept : t.Keeps f first first')
    (following : ∀ value, t.Keeps g (next value) (next' (f value))) :
    t.Keeps g (first >>= next) (first' >>= next') := by
  intro c c' beside stays confined
  have onward := (next (first.run c).value).onward (first.run c).cursor
  have onward' := (next' (first'.run c').value).onward (first'.run c').cursor
  obtain ⟨beside₁, value⟩ :=
    kept c c' beside (stays.trans onward.suffix) (confined.earlier onward')
  have kept₂ := following (first.run c).value _ _ beside₁ stays
  rw [← value] at kept₂
  exact kept₂ confined

/-- What follows upon asking for the position is kept, the position being inside the stretch. -/
theorem Keeps.here {g : β → β'} {next : Pos → Scan β} {next' : Pos → Scan β'}
    (following : ∀ start, t.base.pos.offset ≤ start.offset →
      t.Keeps g (next start) (next' (t.pos start))) :
    t.Keeps g (Scan.here >>= next) (Scan.here >>= next') := by
  intro c c' beside stays confined
  have kept := following c.pos beside.base_le c c' beside stays
  rw [← beside.pos_eq] at kept
  exact kept confined

/-- What agrees where the next character is the same is kept, provided that at the end of the
stretch, where both scans stay in place, the values correspond. -/
theorem Keeps.of_agrees {f : α → α'} {scan : Scan α} {scan' : Scan α'}
    (agrees : t.Agrees f scan scan')
    (atEnd : ∀ c c', t.Beside c c' → (scan.run c).cursor = c → (scan'.run c').cursor = c' →
      (scan'.run c').value = f (scan.run c).value) : t.Keeps f scan scan' := by
  intro c c' beside stays confined
  rcases beside.current?_eq with same | ⟨rest, rest'⟩
  · exact agrees c c' beside same stays confined
  · rcases confined with heads | stays'
    · have same : c'.current? = c.current? := by
        rw [Cursor.current?, Cursor.current?, rest, rest', heads]
      exact agrees c c' beside same stays (.inl heads)
    · have still := (scan.onward c).eq_of_suffix (rest ▸ stays)
      have still' := (scan'.onward c').eq_of_suffix (rest' ▸ stays')
      have value := atEnd c c' beside still still'
      rw [still, still']
      exact ⟨beside, value⟩

/-- What follows upon asking for the position agrees, the position being inside the stretch. -/
theorem Agrees.here {g : β → β'} {next : Pos → Scan β} {next' : Pos → Scan β'}
    (following : ∀ start, t.base.pos.offset ≤ start.offset →
      t.Agrees g (next start) (next' (t.pos start))) :
    t.Agrees g (Scan.here >>= next) (Scan.here >>= next') := by
  intro c c' beside same stays confined
  have agrees := following c.pos beside.base_le c c' beside same stays
  rw [← beside.pos_eq] at agrees
  exact agrees confined

/-- What follows upon asking for the next character agrees when it is kept for every character. -/
theorem Agrees.current? {g : β → β'} {next : Option Char → Scan β} {next' : Option Char → Scan β'}
    (following : ∀ char, t.Keeps g (next char) (next' char)) :
    t.Agrees g (Scan.current? >>= next) (Scan.current? >>= next') := by
  intro c c' beside same stays confined
  change t.Confined ((next' c'.current?).run c').cursor at confined
  change t.Beside ((next c.current?).run c).cursor ((next' c'.current?).run c').cursor ∧
    ((next' c'.current?).run c').value = g ((next c.current?).run c).value
  rw [same] at confined ⊢
  exact following c.current? c c' beside stays confined

/-- Tracing does not change what agrees. -/
theorem Agrees.traced {f : α → α'} {scan : Scan α} {scan' : Scan α'} (reader : Reader)
    {outcome : α → Outcome} {outcome' : α' → Outcome} (agrees : t.Agrees f scan scan') :
    t.Agrees f (scan.traced reader outcome) (scan'.traced reader outcome') :=
  agrees

/-- Tracing does not change what is read. -/
theorem Keeps.traced {f : α → α'} {scan : Scan α} {scan' : Scan α'} (reader : Reader)
    {outcome : α → Outcome} {outcome' : α' → Outcome} (kept : t.Keeps f scan scan') :
    t.Keeps f (scan.traced reader outcome) (scan'.traced reader outcome') :=
  kept

/-- Skipping a class of characters passes the same ones. -/
theorem Keeps.skipWhile (member : Char → Bool) :
    t.Keeps id (Scan.skipWhile member) (Scan.skipWhile member) := by
  rintro c c' ⟨passed, ahead, before, before', rest, rest'⟩ stays confined
  simp only [Scan.run_skipWhile, Confined, Cursor.rest_skipWhile, rest, rest'] at stays confined
  obtain ⟨taken, left⟩ := skip_in_front rfl stays
  obtain ⟨taken', left'⟩ : (ahead ++ t.tail').takeWhile member = ahead.takeWhile member ∧
      (ahead ++ t.tail').dropWhile member = ahead.dropWhile member ++ t.tail' :=
    confined.elim (skip_in_front · stays) (skip_in_front rfl)
  refine ⟨⟨passed ++ ahead.takeWhile member, ahead.dropWhile member, ?_, ?_, ?_, ?_⟩, rfl⟩
  · simp [Cursor.before_skipWhile, rest, taken, before]
  · simp [Cursor.before_skipWhile, rest', taken', before']
  · simp [rest, left]
  · simp [rest', left']

/-- Passing one character passes the same one. -/
theorem Keeps.advance : t.Keeps id Scan.advance Scan.advance := by
  rintro c c' ⟨passed, ahead, before, before', rest, rest'⟩ stays confined
  simp only [Scan.run_advance, Confined, Cursor.rest_advance, rest, rest'] at stays confined
  cases ahead with
  | nil =>
    have ended : t.tail = [] := eq_nil_of_suffix_tail stays
    have ended' : t.tail' = [] := by
      refine confined.elim (fun heads => ?_) eq_nil_of_suffix_tail
      rw [← List.head?_eq_none_iff, ← heads, ended, List.head?_nil]
    refine ⟨⟨passed, [], ?_, ?_, ?_, ?_⟩, rfl⟩
    · simp [Cursor.before_advance, rest, ended, before]
    · simp [Cursor.before_advance, rest', ended', before']
    · simp [rest, ended]
    · simp [rest', ended']
  | cons first ahead =>
    refine ⟨⟨passed ++ [first], ahead, ?_, ?_, ?_, ?_⟩, rfl⟩
    · simp [Cursor.before_advance, rest, before]
    · simp [Cursor.before_advance, rest', before']
    · simp [rest]
    · simp [rest']

/-- A span that starts in the stretch covers the same. -/
theorem Keeps.since {start : Pos} (inside : t.base.pos.offset ≤ start.offset) :
    t.Keeps t.span (Scan.since start) (Scan.since (t.pos start)) := by
  intro c c' beside _ _
  refine ⟨beside, ?_⟩
  have stop := beside.pos_eq
  obtain ⟨passed, ahead, before, before', -, -⟩ := beside
  have offset : c.pos.offset = t.base.pos.offset + passed.length := by
    rw [Cursor.pos_eq_after before, Pos.after_offset]
  have offset' : c'.pos.offset = t.base'.pos.offset + passed.length := by
    rw [Cursor.pos_eq_after before', Pos.after_offset]
  have moved : (t.pos start).offset =
      start.offset - t.base.pos.offset + t.base'.pos.offset := rfl
  have covered : c'.pos.offset - (t.pos start).offset = c.pos.offset - start.offset := by
    omega
  have within : c.pos.offset - start.offset ≤ passed.reverse.length := by
    rw [List.length_reverse]
    omega
  simp only [Scan.run_since, Cursor.since, covered, before, before',
    List.take_append_of_le_length within]
  rw [stop]
  rfl

/-- Accepting given characters one by one gives the same answer. -/
theorem Keeps.acceptAll (expected : List Char) :
    t.Keeps id (Scan.acceptAll expected) (Scan.acceptAll expected) := by
  induction expected with
  | nil => exact .pure rfl
  | cons first more ih =>
    refine .of_agrees (.current? fun next => ?_) fun c c' _ still still' => ?_
    · by_cases accepted : next = some first
      · simp only [accepted, if_true]
        exact .bind .advance fun _ => ih
      · simp only [accepted, if_false]
        exact .pure rfl
    · rw [Scan.acceptAll_of_still still, Scan.acceptAll_of_still still']
      rfl

/-- Literal text from a place of the stretch on is the same. -/
theorem Keeps.readRaw {start : Pos} (inside : t.base.pos.offset ≤ start.offset) :
    t.Keeps (Token.mapSpans t.span) (Scan.readRaw start) (Scan.readRaw (t.pos start)) :=
  .traced .raw (.bind (.skipWhile _) fun _ => .bind (.since inside) fun _ => .pure rfl)

/-- An invalid tag from a place of the stretch on is the same. -/
theorem Keeps.readInvalid {start : Pos} (inside : t.base.pos.offset ≤ start.offset) :
    t.Keeps (Token.mapSpans t.span) (Scan.readInvalid start) (Scan.readInvalid (t.pos start)) :=
  .traced .invalid (.bind (.since inside) fun _ => .pure rfl)

/-- A keyword is read alike. -/
theorem Keeps.readKeyword : t.Keeps id Scan.readKeyword Scan.readKeyword :=
  .traced .keyword (.here fun _ inside =>
    .bind (.skipWhile _) fun _ => .bind (.since inside) fun _ => .pure rfl)

/-- A name is read alike. -/
theorem Keeps.readName :
    t.Keeps (Option.map (Ident.mapSpan t.span)) Scan.readName Scan.readName := by
  refine .of_agrees (.traced .name (.here fun start inside => .current? fun next => ?_))
    fun c c' _ still still' => ?_
  · cases next with
    | none => exact .pure rfl
    | some first =>
      by_cases starts : Unicode.isIdentifierStart first
      · simp only [starts, if_true]
        exact .bind .advance fun _ => .bind (.skipWhile _) fun _ => .bind (.since inside) fun _ =>
          .pure rfl
      · simp only [starts, Bool.false_eq_true, if_false]
        exact .pure rfl
  · rw [Scan.readName_of_still still, Scan.readName_of_still still']
    rfl

/-- The names of a path are read alike. -/
theorem Keeps.readNames : t.Keeps id Scan.readNames Scan.readNames := by
  intro c c' beside stays confined
  change t.tail <:+ (Scan.namesAt c).cursor.rest at stays
  change t.Confined (Scan.namesAt c').cursor at confined
  change t.Beside (Scan.namesAt c).cursor (Scan.namesAt c').cursor ∧
    (Scan.namesAt c').value = (Scan.namesAt c).value
  fun_induction Scan.namesAt c generalizing c' with
  | case1 c name absent =>
    obtain ⟨beside₁, value⟩ := Keeps.readName c c' beside stays
      (confined.earlier (Scan.onward_readName_namesAt c'))
    rw [absent] at value
    rw [Scan.namesAt_of_none value]
    exact ⟨beside₁, rfl⟩
  | case2 c name ident found dot more ih =>
    have onward := (Cursor.onward_advance name.cursor).trans (Scan.onward_namesAt _)
    obtain ⟨beside₁, value⟩ := Keeps.readName c c' beside (stays.trans onward.suffix)
      (confined.earlier (Scan.onward_readName_namesAt c'))
    rw [found] at value
    have stays₁ := stays.trans (Scan.onward_namesAt name.cursor.advance).suffix
    have dot' := (beside₁.current?_eq_of_passed dot (Scan.onward_namesAt _) stays).trans dot
    rw [Scan.namesAt_of_dot value dot'] at confined ⊢
    have confined₁ := confined.earlier (Scan.onward_namesAt _)
    obtain ⟨beside₂, -⟩ := Keeps.advance _ _ beside₁ stays₁ confined₁
    obtain ⟨beside₃, names⟩ := ih _ beside₂ stays confined
    exact ⟨beside₃, congrArg (ident.text :: ·) names⟩
  | case3 c name ident found last =>
    obtain ⟨beside₁, value⟩ := Keeps.readName c c' beside stays
      (confined.earlier (Scan.onward_readName_namesAt c'))
    rw [found] at value
    have last' : (Scan.readName.run c').cursor.current? ≠ some '.' := by
      intro dot'
      rw [Scan.namesAt_of_dot value dot'] at confined
      have same := beside₁.current?_eq_of_passed' dot' (Scan.onward_namesAt _) confined
      exact last (same.symm.trans dot')
    rw [Scan.namesAt_of_no_dot value last']
    exact ⟨beside₁, rfl⟩

/-- A path is read alike. -/
theorem Keeps.readPath :
    t.Keeps (Option.map (Path.mapSpan t.span)) Scan.readPath Scan.readPath := by
  refine .traced .path (.here fun start inside => .bind .readNames fun names => ?_)
  cases names with
  | nil => exact .pure rfl
  | cons root steps => exact .bind (.since inside) fun _ => .pure rfl

/-- The end of a statement tag is read alike. -/
theorem Keeps.readStatementClose :
    t.Keeps id Scan.readStatementClose Scan.readStatementClose :=
  .bind (.skipWhile _) fun _ => .acceptAll _

/-- A tag that is complete but for its end is read alike. -/
theorem Keeps.readBareTag {start : Pos} (inside : t.base.pos.offset ≤ start.offset)
    (lexeme : Lexeme) :
    t.Keeps (Option.map (Token.mapSpans t.span)) (Scan.readBareTag lexeme start)
      (Scan.readBareTag (lexeme.mapSpans t.span) (t.pos start)) := by
  refine .bind .readStatementClose fun closed => ?_
  cases closed with
  | false => exact .pure rfl
  | true => exact .bind (.since inside) fun _ => .pure rfl

/-- The rest of a loop head is read alike. -/
theorem Keeps.readLoopHead {start : Pos} (inside : t.base.pos.offset ≤ start.offset) :
    t.Keeps (Option.map (Token.mapSpans t.span)) (Scan.readLoopHead start)
      (Scan.readLoopHead (t.pos start)) := by
  refine .bind (.skipWhile _) fun _ => .bind .readName fun var => ?_
  cases var with
  | none => exact .pure rfl
  | some var =>
    refine .bind (.skipWhile _) fun _ => .bind .readKeyword fun keyword => ?_
    rcases keyword with _ | (_ | _ | _ | _ | _ | _ | _)
    case some.within =>
      refine .bind (.skipWhile _) fun _ => .bind .readPath fun path => ?_
      cases path with
      | none => exact .pure rfl
      | some path => exact .readBareTag inside (.forStart var path)
    all_goals exact .pure rfl

/-- The rest of a tag that holds a condition is read alike. -/
theorem Keeps.readCondition {start : Pos} (inside : t.base.pos.offset ≤ start.offset)
    {lexeme : Path → Lexeme}
    (moved : ∀ path, lexeme (path.mapSpan t.span) = (lexeme path).mapSpans t.span) :
    t.Keeps (Option.map (Token.mapSpans t.span)) (Scan.readCondition lexeme start)
      (Scan.readCondition lexeme (t.pos start)) := by
  refine .bind (.skipWhile _) fun _ => .bind .readPath fun path => ?_
  cases path with
  | none => exact .pure rfl
  | some path =>
    have closes := Keeps.readBareTag inside (lexeme path)
    rw [← moved path] at closes
    exact closes

/-- The rest of the tag that a keyword opens is read alike. -/
theorem Keeps.readTag {start : Pos} (inside : t.base.pos.offset ≤ start.offset)
    (keyword : Keyword) :
    t.Keeps (Option.map (Token.mapSpans t.span)) (Scan.readTag start keyword)
      (Scan.readTag (t.pos start) keyword) := by
  cases keyword with
  | loop => exact .readLoopHead inside
  | within => exact .pure rfl
  | endLoop => exact .readBareTag inside .forEnd
  | condition => exact .readCondition inside fun _ => rfl
  | elseCondition => exact .readCondition inside fun _ => rfl
  | otherwise => exact .readBareTag inside .elseTag
  | endCondition => exact .readBareTag inside .ifEnd

/-- The rest of a statement tag, readable or not, is read alike. -/
theorem Keeps.readStatement {start : Pos} (inside : t.base.pos.offset ≤ start.offset) :
    t.Keeps (Token.mapSpans t.span) (Scan.readStatement start)
      (Scan.readStatement (t.pos start)) := by
  refine .bind .advance fun _ => .bind (.skipWhile _) fun _ => .bind .readKeyword fun keyword => ?_
  cases keyword with
  | none => exact .readInvalid inside
  | some keyword =>
    refine .bind (.readTag inside keyword) fun tag => ?_
    cases tag with
    | none => exact .readInvalid inside
    | some tag => exact .pure rfl

/-- The rest of an interpolation, readable or not, is read alike. -/
theorem Keeps.readInterpolation {start : Pos} (inside : t.base.pos.offset ≤ start.offset) :
    t.Keeps (Token.mapSpans t.span) (Scan.readInterpolation start)
      (Scan.readInterpolation (t.pos start)) := by
  refine .bind .advance fun _ => .bind (.skipWhile _) fun _ => .bind .readPath fun path => ?_
  cases path with
  | none => exact .readRaw inside
  | some path =>
    refine .bind (.skipWhile _) fun _ => .bind (.acceptAll _) fun closed => ?_
    cases closed with
    | false => exact .readRaw inside
    | true => exact .bind (.since inside) fun _ => .pure rfl

/-- What an opening brace leads to is read alike. -/
theorem Keeps.readAfterBrace {start : Pos} (inside : t.base.pos.offset ≤ start.offset) :
    t.Keeps (Token.mapSpans t.span) (Scan.readAfterBrace start)
      (Scan.readAfterBrace (t.pos start)) := by
  refine .of_agrees (.current? fun next => ?_) fun c c' beside still still' => ?_
  · split
    · exact .readInterpolation inside
    · exact .readStatement inside
    · exact .readRaw inside
  · obtain ⟨value, stays⟩ := Scan.readAfterBrace_of_still still
    obtain ⟨value', stays'⟩ := Scan.readAfterBrace_of_still still'
    rw [value, value']
    refine (Keeps.readRaw inside c c' beside ?_ (.inr ?_)).2
    · rw [stays]
      exact beside.tail_suffix.1
    · rw [stays']
      exact beside.tail_suffix.2

/-- A token that ends inside of a stretch or at its end is read alike in other surroundings. -/
theorem Keeps.readToken : t.Keeps (Token.mapSpans t.span) Scan.readToken Scan.readToken := by
  refine .of_agrees (.traced .token (.here fun start inside => .current? fun next => ?_))
    fun c c' beside still still' => ?_
  · split
    · exact .bind (.since inside) fun _ => .pure rfl
    · exact .bind .advance fun _ => .readAfterBrace inside
    · exact .readRaw inside
  · rw [Scan.readToken_of_still still, Scan.readToken_of_still still', beside.pos_eq]
    rfl

end Transplant

/-- What a token says, and how far it reaches, hangs on the stretch of text it ends in and on the
next character behind that stretch. -/
theorem Scan.readToken_beside {c c' : Cursor} {stretch tail tail' : List Char}
    (next : tail.head? = tail'.head?) (ahead : c.rest = stretch ++ tail)
    (ahead' : c'.rest = stretch ++ tail') (stays : tail <:+ (readToken.run c).cursor.rest) :
    (readToken.run c').value.lexeme.bare = (readToken.run c).value.lexeme.bare ∧
      ∃ left, (readToken.run c).cursor.rest = left ++ tail ∧
        (readToken.run c').cursor.rest = left ++ tail' := by
  have beside : Transplant.Beside ⟨c, c', tail, tail'⟩ c c' :=
    ⟨[], stretch, rfl, rfl, ahead, ahead'⟩
  obtain ⟨⟨_, left, -, -, rest, rest'⟩, value⟩ :=
    Transplant.Keeps.readToken c c' beside stays (.inl next)
  refine ⟨?_, left, rest, rest'⟩
  rw [value]
  exact Lexeme.bare_mapSpans _ _

/-- Before the end of the text, the characters that a token covers are read as that token in front
of any tail with the same first character as what follows the token. -/
theorem Scan.readToken_in_front {c c' : Cursor} (more : c.rest ≠ []) {tail : List Char}
    (text : c'.rest = (readToken.run c).value.span.raw.toList ++ tail)
    (next : (readToken.run c).cursor.rest.head? = tail.head?) :
    (readToken.run c').value.lexeme.bare = (readToken.run c).value.lexeme.bare ∧
      (readToken.run c').cursor.rest = tail := by
  obtain ⟨same, left, stop, stop'⟩ :=
    readToken_beside next (rest_eq_readToken more) text (List.suffix_refl _)
  have nothing : left = [] := List.self_eq_append_left.mp stop
  rw [nothing] at stop'
  exact ⟨same, stop'⟩

end TextTemplate.Markup
