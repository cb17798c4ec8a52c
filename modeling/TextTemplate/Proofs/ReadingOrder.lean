import TextTemplate.Markup.Lookahead
import TextTemplate.Proofs.SoundReading

/-!
# Reading in any order

A lookahead may be used out of order: single readers can be run in the middle of a tag, from marks
taken long ago, and with a token held that has nothing to do with the place of the cursor. Whatever
is done, the cursor stays on its way through the text, every mark stays behind it, no check of a
reader fails, and every span that comes back stands in the text. The end of the text is held only
where the cursor has reached it.

A step is a whole call of a reader; nothing is said here about the cursor while a reader runs.
-/

namespace TextTemplate.Markup

open Text

/-- The spans in what a traced reader came back with. -/
def Outcome.spans : Outcome → List Span
  | .token read => read.spans
  | .keyword _ => []
  | .name found => Checked.nameSpans found
  | .path found => Checked.pathSpans found

/-- The spans in what a step came back with. -/
def Answer.spans : Answer → List Span
  | .done | .closed _ => []
  | .tokens used => used.flatMap (·.spans)
  | .outcome found => found.spans

namespace Lookahead

/-- The lookahead that holds the first token of a text, read with checks. -/
def tryOfText (text : String) : Except Fault Lookahead := do
  let (token, cursor) ← Checked.readToken.run (.ofText text)
  return ⟨cursor, token, [cursor.pos]⟩

/-- Holds the next token, read with checks, instead of the current one. The end of the text
stays. -/
def tryAdvance (state : Lookahead) : Except Fault Lookahead :=
  if state.current.lexeme = .endOfText then return state
  else do
    let (token, cursor) ← Checked.readToken.run state.cursor
    return { state with cursor := cursor, current := token }

/-- The token held and all that follow it, read with checks in at most `rounds` rounds, and the
lookahead that holds the last one. -/
def tryDrain : Nat → Lookahead → Except Fault (List Token × Lookahead)
  | 0, _ => throw .unfinished
  | rounds + 1, state =>
    if state.current.lexeme = .endOfText then return ([state.current], state)
    else do
      let next ← state.tryAdvance
      let (tokens, last) ← tryDrain rounds next
      return (state.current :: tokens, last)

/-- Runs a single checked reader at the cursor. -/
def tryRead {α : Type} (state : Lookahead) (checked : Checked α) (answer : α → Answer) :
    Except Fault (Answer × Lookahead) := do
  let (value, cursor) ← checked.run state.cursor
  return (answer value, { state with cursor := cursor })

/-- Takes one step with checks. -/
def tryPerform (state : Lookahead) : Step → Except Fault (Answer × Lookahead)
  | .advance => return (.done, ← state.tryAdvance)
  | .drain => do
    let (tokens, last) ← state.tryDrain (state.cursor.rest.length + 2)
    return (.tokens tokens, last)
  | .mark => return (.done, { state with marks := state.cursor.pos :: state.marks })
  | .moveCursor => state.tryRead Checked.advance fun _ => .done
  | .readToken => state.tryRead Checked.readToken fun token => .outcome (.token token)
  | .readRaw back => state.tryRead (Checked.readRaw (state.markAt back)) fun token =>
      .outcome (.token token)
  | .readInvalid back => state.tryRead (Checked.readInvalid (state.markAt back)) fun token =>
      .outcome (.token token)
  | .readName => state.tryRead Checked.readName fun name => .outcome (.name name)
  | .readPath => state.tryRead Checked.readPath fun path => .outcome (.path path)
  | .readKeyword => state.tryRead Checked.readKeyword fun keyword => .outcome (.keyword keyword)
  | .readStatementClose => state.tryRead Checked.readStatementClose .closed
  | .skipBlanks => state.tryRead Checked.skipBlanks fun _ => .done

/-- Takes steps with checks in turn, each from the state the one before it leads to. -/
def tryRun : Lookahead → List Step → Except Fault (List (Answer × Lookahead))
  | _, [] => return []
  | state, step :: more => do
    let result ← state.tryPerform step
    return result :: (← tryRun result.2 more)

/-- What holds of a lookahead on a text whatever has been done with it. -/
structure OnText (text : String) (state : Lookahead) : Prop where
  /-- The cursor is on its way through the text. -/
  reached : (Cursor.ofText text).Onward state.cursor
  /-- Every mark was passed. -/
  marked : ∀ mark ∈ state.marks, state.cursor.Passed text mark
  /-- The end of the text is held only at the end of the text. -/
  ended : state.current.lexeme = .endOfText → state.cursor.rest = []
  /-- The spans of the token held stand in the text. -/
  stand : ∀ span ∈ state.current.spans, span.StandsIn text

variable {text : String} {state : Lookahead}

namespace OnText

/-- Any mark that a step can name was passed, the start of the text among them. -/
theorem passed_markAt (kept : state.OnText text) (back : Nat) :
    state.cursor.Passed text (state.markAt back) := by
  rw [markAt, List.getD_eq_getElem?_getD]
  cases found : state.marks[back]? with
  | none => exact ⟨.ofText text, .refl _, rfl, kept.reached⟩
  | some mark => exact kept.marked mark (List.mem_of_getElem? found)

/-- The cursor may be moved forward while the same token is held. -/
theorem moved (kept : state.OnText text) {d : Cursor} (onward : state.cursor.Onward d) :
    OnText text { state with cursor := d } where
  reached := kept.reached.trans onward
  marked mark member := (kept.marked mark member).onward onward
  ended last := List.eq_nil_of_length_eq_zero
    (Nat.le_zero.mp (by simpa [kept.ended last] using onward.length_le))
  stand := kept.stand

/-- The place of the cursor may be marked. -/
theorem marking (kept : state.OnText text) :
    OnText text { state with marks := state.cursor.pos :: state.marks } where
  reached := kept.reached
  marked := List.forall_mem_cons.mpr ⟨kept.reached.passed, kept.marked⟩
  ended := kept.ended
  stand := kept.stand

end OnText

/-- A step that was tried is not refused and does what the step without checks does; the lookahead
stays on the text, the cursor does not move back, and the spans that come back stand in the text. -/
structure Proceeds (text : String) (state : Lookahead) (tried : Except Fault (Answer × Lookahead))
    (result : Answer × Lookahead) : Prop where
  /-- Nothing is refused. -/
  agrees : tried = .ok result
  /-- The lookahead stays on the text. -/
  kept : result.2.OnText text
  /-- The cursor moves forward. -/
  onward : state.cursor.Onward result.2.cursor
  /-- The spans that come back stand in the text. -/
  stand : ∀ span ∈ result.1.spans, span.StandsIn text

/-- Running a sound reader from a mark that was passed is a step forward. -/
theorem proceeds_read {α : Type} (kept : state.OnText text) {mark : Pos}
    (passed : state.cursor.Passed text mark) {spans : α → List Span} {checked : Checked α}
    {scan : Scan α} (sound : Checked.Sound text mark spans checked scan) (answer : α → Answer)
    (same : ∀ value, (answer value).spans = spans value) :
    Proceeds text state (state.tryRead checked answer) (state.read scan answer) := by
  obtain ⟨read, stand⟩ := sound state.cursor passed
  have onward := scan.onward state.cursor
  refine ⟨?_, kept.moved onward, onward, ?_⟩
  · rw [tryRead, read]
    rfl
  · rw [show (state.read scan answer).1 = answer (scan.run state.cursor).value from rfl, same]
    exact stand

/-- Holding the next token is a step forward, which no check refuses. -/
theorem tryAdvance_eq (kept : state.OnText text) :
    state.tryAdvance = .ok state.advance ∧ state.advance.OnText text ∧
      state.cursor.Onward state.advance.cursor := by
  by_cases last : state.current.lexeme = .endOfText
  · rw [tryAdvance, advance, if_pos last, if_pos last]
    exact ⟨rfl, kept, .refl _⟩
  · obtain ⟨read, stand⟩ := Checked.sound_readToken state.cursor kept.reached.passed
    have onward := Scan.readToken.onward state.cursor
    have moved := kept.moved onward
    rw [tryAdvance, advance, if_neg last, if_neg last, read]
    exact ⟨rfl, ⟨moved.reached, moved.marked, Scan.rest_of_endOfText state.cursor, stand⟩, onward⟩

/-- A lookahead that holds the token read at a cursor has all tokens from there on left. -/
theorem tokens_readToken (c : Cursor) (marks : List Pos) :
    tokens ⟨(Scan.readToken.run c).cursor, (Scan.readToken.run c).value, marks⟩ =
      (readingsFrom c).map (·.value) := by
  by_cases ended : c.rest = []
  · rw [tokens, readingsFrom_of_end ended, if_pos ((Scan.readToken_endOfText_iff c).mpr ended)]
    rfl
  · rw [tokens, readingsFrom_of_more ended, if_neg (mt (Scan.readToken_endOfText_iff c).mp ended)]
    rfl

/-- Opened on a text, a lookahead has all tokens of the text left. -/
theorem tokens_ofText (text : String) : (ofText text).tokens = tokenize text :=
  tokens_readToken (.ofText text) _

/-- Before the end of the text the tokens left are the one held and those left behind it. -/
theorem tokens_of_not_end (more : state.current.lexeme ≠ .endOfText) :
    state.tokens = state.current :: state.advance.tokens := by
  have behind : state.advance.tokens = (readingsFrom state.cursor).map (·.value) := by
    rw [advance, if_neg more]
    exact tokens_readToken state.cursor state.marks
  rw [tokens, if_neg more, behind]

/-- The end of the text is left over when nothing else is. -/
theorem tokens_ne_nil (state : Lookahead) : state.tokens ≠ [] := by
  rw [tokens]
  split <;> exact List.cons_ne_nil _ _

/-- The token behind the one held is the end of the text exactly at the end. -/
theorem advance_endOfText_iff (more : state.current.lexeme ≠ .endOfText) :
    state.advance.current.lexeme = .endOfText ↔ state.cursor.rest = [] := by
  rw [advance, if_neg more]
  exact Scan.readToken_endOfText_iff state.cursor

/-- Before the end of the text the same end is reached from the token behind the one held. -/
theorem drained_of_not_end (more : state.current.lexeme ≠ .endOfText) :
    state.drained = state.advance.drained := by
  by_cases ended : state.cursor.rest = []
  · have last := (advance_endOfText_iff more).mpr ended
    simp only [drained, if_neg more, if_pos last, readingsFrom_of_end ended,
      List.getLast_singleton]
    rw [advance, if_neg more]
  · have next := mt (advance_endOfText_iff more).mp ended
    have behind : state.advance.cursor = (Scan.readToken.run state.cursor).cursor := by
      rw [advance, if_neg more]
    have marks : state.advance.marks = state.marks := by
      rw [advance, if_neg more]
    simp only [drained, if_neg more, if_neg next, readingsFrom_of_more ended, behind, marks,
      List.getLast_cons (readingsFrom_ne_nil _)]

/-- The lookahead that holds the end of a text is still on it, and no check refuses a token on the
way, as long as there are rounds for every character left, for the token held and for the end. -/
theorem tryDrain_eq (kept : state.OnText text) {rounds : Nat} (any : 0 < rounds)
    (enough : state.current.lexeme ≠ .endOfText → state.cursor.rest.length + 1 < rounds) :
    state.tryDrain rounds = .ok (state.tokens, state.drained) ∧ state.drained.OnText text ∧
      state.cursor.Onward state.drained.cursor ∧
      ∀ token ∈ state.tokens, ∀ span ∈ token.spans, span.StandsIn text := by
  induction rounds generalizing state with
  | zero => exact absurd any (Nat.lt_irrefl 0)
  | succ rounds ih =>
    by_cases last : state.current.lexeme = .endOfText
    · rw [tryDrain, tokens, drained, if_pos last, if_pos last, if_pos last]
      exact ⟨rfl, kept, .refl _, List.forall_mem_singleton.mpr kept.stand⟩
    · obtain ⟨read, kept', onward⟩ := tryAdvance_eq kept
      have left : state.cursor.rest.length + 1 < rounds + 1 := enough last
      -- A token that is not the end of the text used up a character.
      have shorter : state.advance.current.lexeme ≠ .endOfText →
          state.advance.cursor.rest.length + 1 < rounds := by
        intro next
        have used := Scan.readToken_shorter (mt (advance_endOfText_iff last).mpr next)
        have behind : state.advance.cursor = (Scan.readToken.run state.cursor).cursor := by
          rw [advance, if_neg last]
        rw [behind]
        omega
      obtain ⟨read', kept'', onward', stand⟩ := ih kept' (by omega) shorter
      rw [tryDrain, if_neg last, read, tokens_of_not_end last, drained_of_not_end last]
      refine ⟨?_, kept'', onward.trans onward', List.forall_mem_cons.mpr ⟨kept.stand, stand⟩⟩
      rw [Fault.ok_bind, read', Fault.ok_bind]
      rfl

/-- Every step proceeds from a lookahead on the text. -/
theorem proceeds (kept : state.OnText text) (step : Step) :
    Proceeds text state (state.tryPerform step) (state.perform step) := by
  have here := kept.reached.passed
  cases step with
  | advance =>
    obtain ⟨read, kept', onward⟩ := tryAdvance_eq kept
    refine ⟨?_, kept', onward, fun _ none => absurd none List.not_mem_nil⟩
    rw [tryPerform, read]
    rfl
  | drain =>
    obtain ⟨read, kept', onward, stand⟩ :=
      tryDrain_eq kept (Nat.succ_pos _) fun _ => Nat.lt_succ_self _
    refine ⟨?_, kept', onward, ?_⟩
    · rw [tryPerform, read]
      rfl
    · rw [perform, Answer.spans]
      simpa using fun span token member inside => stand token member span inside
  | mark => exact ⟨rfl, kept.marking, .refl _, fun _ none => absurd none List.not_mem_nil⟩
  | moveCursor => exact proceeds_read kept here Checked.sound_advance (fun _ => .done) fun _ => rfl
  | readToken =>
    exact proceeds_read kept here Checked.sound_readToken (.outcome <| .token ·) fun _ => rfl
  | readRaw back =>
    have passed := kept.passed_markAt back
    exact proceeds_read kept passed Checked.sound_readRaw (.outcome <| .token ·) fun _ => rfl
  | readInvalid back =>
    have passed := kept.passed_markAt back
    exact proceeds_read kept passed Checked.sound_readInvalid (.outcome <| .token ·) fun _ => rfl
  | readName =>
    exact proceeds_read kept here Checked.sound_readName (.outcome <| .name ·) fun _ => rfl
  | readPath =>
    exact proceeds_read kept here Checked.sound_readPath (.outcome <| .path ·) fun _ => rfl
  | readKeyword =>
    exact proceeds_read kept here Checked.sound_readKeyword (.outcome <| .keyword ·) fun _ => rfl
  | readStatementClose =>
    exact proceeds_read kept here Checked.sound_readStatementClose .closed fun _ => rfl
  | skipBlanks =>
    exact proceeds_read kept here Checked.sound_skipBlanks (fun _ => .done) fun _ => rfl

/-- Opening a text is not refused and leads to a lookahead on it. -/
theorem tryOfText_eq (text : String) :
    tryOfText text = .ok (ofText text) ∧ (ofText text).OnText text := by
  obtain ⟨read, stand⟩ := Checked.sound_readToken (.ofText text) (Cursor.Onward.refl _).passed
  have onward := Scan.readToken.onward (.ofText text)
  constructor
  · rw [tryOfText, read]
    rfl
  · have marked : ∀ mark ∈ (ofText text).marks, (ofText text).cursor.Passed text mark :=
      List.forall_mem_singleton.mpr onward.passed
    exact ⟨onward, marked, Scan.rest_of_endOfText (.ofText text), stand⟩

/-- Steps in turn are not refused. They stay on the text, move the cursor forward and come back with
spans that stand in the text. -/
theorem tryRun_eq (kept : state.OnText text) (steps : List Step) :
    state.tryRun steps = .ok (state.run steps) ∧
      (∀ result ∈ state.run steps, result.2.OnText text ∧
        ∀ span ∈ result.1.spans, span.StandsIn text) ∧
      (state :: (state.run steps).map (·.2)).IsChain fun state next =>
        state.cursor.Onward next.cursor := by
  induction steps generalizing state with
  | nil => exact ⟨rfl, fun _ none => absurd none List.not_mem_nil, List.isChain_singleton _⟩
  | cons step more ih =>
    have first := proceeds kept step
    obtain ⟨agrees, each, chain⟩ := ih first.kept
    refine ⟨?_, List.forall_mem_cons.mpr ⟨⟨first.kept, first.stand⟩, each⟩,
      List.isChain_cons_cons.mpr ⟨first.onward, chain⟩⟩
    rw [tryRun, first.agrees, Fault.ok_bind, agrees, Fault.ok_bind]
    rfl

/-- Using tokens up after holding the next one `k` times leaves out the first `k` tokens, or all but
the last where there are fewer. -/
theorem drain_after_advances (k : Nat) (state : Lookahead) :
    (state.run (List.replicate k .advance ++ [.drain])).getLast?.map (·.1) =
      some (.tokens (state.tokens.drop (min k (state.tokens.length - 1)))) := by
  induction k generalizing state with
  | zero => simp [run, perform]
  | succ k ih =>
    have more : state.advance.run (List.replicate k .advance ++ [.drain]) ≠ [] := by
      intro none
      have last := ih state.advance
      rw [none] at last
      exact nomatch last
    have later : (state.run (List.replicate (k + 1) .advance ++ [.drain])).getLast? =
        (state.advance.run (List.replicate k .advance ++ [.drain])).getLast? := by
      rw [List.replicate_succ, List.cons_append, run]
      exact List.getLast?_cons_of_ne_nil more
    rw [later, ih]
    by_cases last : state.current.lexeme = .endOfText
    · have stays : state.advance = state := by rw [advance, if_pos last]
      have single : state.tokens.length = 1 := by rw [tokens, if_pos last, List.length_singleton]
      rw [stays, single]
      simp
    · have some := List.length_pos_of_ne_nil state.advance.tokens_ne_nil
      have counted : min (k + 1) state.advance.tokens.length =
          min k (state.advance.tokens.length - 1) + 1 := by omega
      rw [tokens_of_not_end last, List.length_cons, Nat.add_sub_cancel, counted,
        List.drop_succ_cons]

/-- Whatever is done with a lookahead on a text, in any order, nothing is refused. The offset of the
cursor never decreases and never exceeds the length of the text, the position of the cursor is the
one computed from the characters in front of it, and every span that comes back or is held stands in
the text, its end being computed from its start and what it covers. Where the end of the text is
held, the cursor is there. Using up the tokens after `k` times holding the next one gives the tokens
of the text without the first `k`, or the last one alone where there are fewer. -/
theorem run_keeps_text (text : String) (steps : List Step) :
    (tryOfText text >>= fun state => state.tryRun steps) = .ok ((ofText text).run steps) ∧
    (ofText text :: ((ofText text).run steps).map (·.2)).IsChain (fun state next =>
      state.cursor.pos.offset ≤ next.cursor.pos.offset) ∧
    (∀ state ∈ ofText text :: ((ofText text).run steps).map (·.2),
      state.cursor.pos.offset ≤ text.length ∧
      state.cursor.pos = placeAt text state.cursor.pos.offset ∧
      (state.current.lexeme = .endOfText → state.cursor.pos.offset = text.length) ∧
      ∀ span ∈ state.current.spans, span.StandsIn text) ∧
    (∀ result ∈ (ofText text).run steps, ∀ span ∈ result.1.spans,
      span.raw.toList = (text.toList.take span.stop.offset).drop span.start.offset ∧
      span.stop = span.start.after span.raw.toList) ∧
    ∀ k, ((ofText text).run (List.replicate k .advance ++ [.drain])).getLast?.map (·.1) =
      some (.tokens ((tokenize text).drop (min k ((tokenize text).length - 1)))) := by
  obtain ⟨opened, kept⟩ := tryOfText_eq text
  obtain ⟨agrees, each, chain⟩ := tryRun_eq kept steps
  have every : ∀ state ∈ ofText text :: ((ofText text).run steps).map (·.2),
      state.OnText text := by
    rw [List.forall_mem_cons, List.forall_mem_map]
    exact ⟨kept, fun result member => (each result member).1⟩
  refine ⟨?_, chain.imp fun _ _ onward => onward.offset_le, fun state member => ?_,
    fun result member span inside => ?_, fun k => ?_⟩
  · rw [opened, Fault.ok_bind, agrees]
  · have on := every state member
    have parts := on.reached.offset_add_rest
    refine ⟨by omega, on.reached.pos_eq_placeAt, fun last => ?_, on.stand⟩
    simpa [on.ended last] using parts
  · have stands := (each result member).2 span inside
    exact ⟨stands.raw_eq, stands.stop_eq_after⟩
  · rw [drain_after_advances, tokens_ofText]

end Lookahead

end TextTemplate.Markup
