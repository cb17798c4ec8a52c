import TextTemplate.Log.Trace
import TextTemplate.Parsing.Descent
import TextTemplate.Proofs.BlockAssembly
import TextTemplate.Proofs.IndentedLog
import TextTemplate.Proofs.SoundReading
import TextTemplate.Proofs.TaggedEvaluation

/-!
# Single steps of the descent

The descent holds one token at a time and asks for the next one when it has used it. What is in
front of a desk is a row of readings, the first of which is held already. Asking for the next token
moves the desk by one reading, with the records that the reading leaves, and does nothing at the end
of the text. The assembly reads the same row token by token, and what it makes of the rest of the
row, tree and log, is what the descent has to agree with.
-/

namespace TextTemplate

open Expression Log Markup Text

namespace Parsing

/-- The records that are kept: all of them, or warnings only. -/
def kept (debug : Bool) (records : List Record) : List Record :=
  if debug then records else records.filter (·.level = .warning)

/-- What is kept of two parts of a log follows each other. -/
theorem kept_append (debug : Bool) (front back : List Record) :
    kept debug (front ++ back) = kept debug front ++ kept debug back := by
  cases debug
  · exact List.filter_append ..
  · rfl

/-- A single record is kept where all are, or where it is a warning. -/
theorem kept_singleton (debug : Bool) (record : Record) :
    kept debug [record] = if debug ∨ record.level = .warning then [record] else [] := by
  cases debug
  · simp [kept, List.filter_cons]
  · rfl

/-- No warning is left by a reader. -/
theorem kept_false_readingRecords (reading : Reading Token) :
    kept false (readingRecords reading) = [] := by
  refine List.filter_eq_nil_iff.mpr fun record member => ?_
  obtain ⟨message, -, rfl⟩ := List.mem_map.mp member
  exact Bool.false_ne_true

/-- Readers that all came back are no longer at work. -/
theorem levelAfter_append {events : List Event} (nested : Nested events) (level : Nat)
    (more : List Event) : levelAfter level (events ++ more) = levelAfter level more := by
  induction nested generalizing level more with
  | nil => rfl
  | call reader pos next outcome _ _ inside behind =>
    simp only [List.cons_append, List.append_assoc, levelAfter, inside (level + 1), behind,
      Nat.add_sub_cancel]

/-- Reading a token sets the count of the readers at work back. -/
theorem levelAfter_readToken (level : Nat) (c : Cursor) :
    levelAfter level (Scan.readToken.run c).events = level := by
  have nested := levelAfter_append (nested_readToken c) level []
  rwa [List.append_nil] at nested

section

variable {α β : Type} {desk desk' : Desk}

/-- Behind a parser that was not refused, what follows starts where it stopped. -/
theorem run_bind_of_ok {first : Parser α} {following : α → Parser β} {value : α}
    (done : first.run desk = .ok (value, desk')) :
    (first >>= following).run desk = (following value).run desk' := by
  rw [StateT.run_bind, done, Fault.ok_bind]

/-- What is not refused on its own is not refused at a desk, and changes nothing there. -/
theorem run_lift {attempt : Except Fault α} {value : α} (done : attempt = .ok value)
    (desk : Desk) : (liftM attempt : Parser α).run desk = .ok (value, desk) := by
  rw [done]
  rfl

/-- The token held is asked for without any change. -/
theorem run_current (desk : Desk) : current.run desk = .ok (desk.current, desk) := rfl

/-- A body is read one level deeper, and the level is left again. -/
theorem run_deeper {inside : Parser α} {body : α}
    (done : inside.run { desk with depth := desk.depth + 1 } = .ok (body, desk')) :
    (deeper inside).run desk = .ok (body, { desk' with depth := desk'.depth - 1 }) := by
  have entered : (modify fun desk : Desk => { desk with depth := desk.depth + 1 } : Parser _).run
      desk = .ok ((), { desk with depth := desk.depth + 1 }) := rfl
  rw [deeper, run_bind_of_ok entered, run_bind_of_ok done]
  rfl

end

/-- The readings in front of a desk: the token of the first one is held, and the others follow it in
the text. -/
structure Desk.Faces (text : String) (desk : Desk) (left : List (Reading Token)) : Prop where
  /-- The cursor was moved forward from the start of the text. -/
  reached : (Cursor.ofText text).Onward desk.cursor
  /-- No reader is at work. -/
  margin : desk.level = 0
  /-- The token held is the first one, and the end of the text the last one. -/
  ahead : ∃ first more, left = first :: more ∧ first.value = desk.current ∧
    more = if desk.current.lexeme = .endOfText then [] else readingsFrom desk.cursor

/-- From one desk to another the level is the same, and the records were written. -/
structure Moves (desk desk' : Desk) (records : List Record) : Prop where
  /-- The depth is the same. -/
  depth : desk'.depth = desk.depth
  /-- The same records are kept. -/
  debug : desk'.debug = desk.debug
  /-- What is to be kept of the records was added. -/
  log : desk'.log = desk.log ++ kept desk.debug records

/-- One move follows another. -/
theorem Moves.trans {desk desk' desk'' : Desk} {front back : List Record}
    (first : Moves desk desk' front) (second : Moves desk' desk'' back) :
    Moves desk desk'' (front ++ back) where
  depth := second.depth.trans first.depth
  debug := second.debug.trans first.debug
  log := by rw [second.log, first.log, first.debug, kept_append, List.append_assoc]

/-- Nothing is written where nothing moves. -/
theorem Moves.refl (desk : Desk) : Moves desk desk [] where
  depth := rfl
  debug := rfl
  log := by cases h : desk.debug <;> simp [kept]

/-- The readings behind the first one; the last one stays. -/
def beyond : List (Reading Token) → List (Reading Token)
  | _ :: next :: more => next :: more
  | left => left

/-- The records that the reading behind the first one leaves. -/
def nextRecords (left : List (Reading Token)) : List Record :=
  left.tail.head?.elim [] readingRecords

variable {text : String} {desk : Desk} {left : List (Reading Token)}

/-- Reading a token at the desk moves the cursor behind it and leaves the records of the readers. -/
theorem run_readToken (reached : (Cursor.ofText text).Onward desk.cursor)
    (margin : desk.level = 0) :
    readToken.run desk = .ok ((Scan.readToken.run desk.cursor).value, { desk with
      cursor := (Scan.readToken.run desk.cursor).cursor
      log := desk.log ++ kept desk.debug (readingRecords (Scan.readToken.run desk.cursor)) }) := by
  obtain ⟨cursor, current, level, depth, debug, log⟩ := desk
  obtain rfl : level = 0 := margin
  cases debug with
  | true =>
    have done : readToken.run ⟨cursor, current, 0, depth, true, log⟩ =
        .ok ((Scan.readToken.run cursor).value, ⟨(Scan.readToken.run cursor).cursor, current,
          levelAfter 0 (Scan.readToken.run cursor).events, depth, true,
          log ++ kept true (readingRecords (Scan.readToken.run cursor))⟩) := rfl
    rw [done, levelAfter_readToken]
  | false =>
    have found : (get : Parser Desk).run ⟨cursor, current, 0, depth, false, log⟩ =
        .ok (⟨cursor, current, 0, depth, false, log⟩,
          ⟨cursor, current, 0, depth, false, log⟩) := rfl
    have read := (Checked.sound_readToken cursor reached.passed).1
    rw [readToken, run_bind_of_ok found]
    simp only [Bool.false_eq_true, if_false]
    rw [run_bind_of_ok (run_lift read _), kept_false_readingRecords, List.append_nil]
    rfl

/-- The readings from a cursor on are in front of a desk that holds the first one. -/
theorem faces_readToken {c : Cursor} (reached : (Cursor.ofText text).Onward c)
    (holds : desk.current = (Scan.readToken.run c).value)
    (behind : desk.cursor = (Scan.readToken.run c).cursor) (margin : desk.level = 0) :
    desk.Faces text (readingsFrom c) where
  reached := behind ▸ reached.trans (Scan.readToken.onward c)
  margin := margin
  ahead := by
    by_cases ended : c.rest = []
    · have last := (Scan.readToken_endOfText_iff c).mpr ended
      exact ⟨_, [], readingsFrom_of_end ended, holds.symm, by rw [holds, if_pos last]⟩
    · have inside := mt (Scan.readToken_endOfText_iff c).mp ended
      exact ⟨_, _, readingsFrom_of_more ended, holds.symm, by rw [holds, behind, if_neg inside]⟩

namespace Desk.Faces

/-- The token held is the first one. -/
theorem head?_eq (faces : desk.Faces text left) :
    left.head?.map (·.value) = some desk.current := by
  obtain ⟨first, more, rfl, held, -⟩ := faces.ahead
  rw [List.head?_cons, Option.map_some, held]

/-- Something is always in front of a desk. -/
theorem length_pos (faces : desk.Faces text left) : 0 < left.length := by
  obtain ⟨first, more, rfl, -, -⟩ := faces.ahead
  exact Nat.succ_pos _

/-- At the end of the text only that is in front of the desk. -/
theorem of_end (faces : desk.Faces text left) (last : desk.current.lexeme = .endOfText) :
    ∃ first, left = [first] ∧ first.value = desk.current := by
  obtain ⟨first, more, rfl, held, rest⟩ := faces.ahead
  rw [if_pos last] at rest
  exact ⟨first, by rw [rest], held⟩

/-- Before the end of the text a further reading is in front of the desk. -/
theorem of_inside (faces : desk.Faces text left) (inside : desk.current.lexeme ≠ .endOfText) :
    ∃ first next more, left = first :: next :: more ∧ first.value = desk.current ∧
      next = Scan.readToken.run desk.cursor ∧ next :: more = readingsFrom desk.cursor := by
  obtain ⟨first, more, rfl, held, rest⟩ := faces.ahead
  rw [if_neg inside] at rest
  by_cases ended : desk.cursor.rest = []
  · exact ⟨first, _, [], by rw [rest, readingsFrom_of_end ended], held, rfl,
      (readingsFrom_of_end ended).symm⟩
  · exact ⟨first, _, _, by rw [rest, readingsFrom_of_more ended], held, rfl,
      (readingsFrom_of_more ended).symm⟩

/-- Before the end of the text one reading less is in front of a desk behind the next one. -/
theorem length_beyond (faces : desk.Faces text left) (inside : desk.current.lexeme ≠ .endOfText) :
    (beyond left).length + 1 = left.length := by
  obtain ⟨first, next, more, rfl, -⟩ := faces.of_inside inside
  rfl

/-- What is in front of a desk hangs on the cursor, the token held and the count of the readers. -/
theorem congr {desk' : Desk} (faces : desk.Faces text left) (cursor : desk'.cursor = desk.cursor)
    (held : desk'.current = desk.current) (level : desk'.level = desk.level) :
    desk'.Faces text left where
  reached := by rw [cursor]; exact faces.reached
  margin := level.trans faces.margin
  ahead := by rw [cursor, held]; exact faces.ahead

end Desk.Faces

/-- Asking for the next token moves the desk by one reading, or not at all at the end of the
text. -/
theorem run_advance (faces : desk.Faces text left) :
    ∃ desk', advance.run desk = .ok ((), desk') ∧ Moves desk desk' (nextRecords left) ∧
      desk'.Faces text (beyond left) := by
  by_cases last : desk.current.lexeme = .endOfText
  · obtain ⟨first, rfl, -⟩ := faces.of_end last
    refine ⟨desk, ?_, Moves.refl desk, faces⟩
    rw [advance, run_bind_of_ok (run_current desk)]
    simp only [last]
    rfl
  · obtain ⟨first, next, more, rfl, -, rfl, rest⟩ := faces.of_inside last
    refine ⟨{ desk with
        cursor := (Scan.readToken.run desk.cursor).cursor
        current := (Scan.readToken.run desk.cursor).value
        log := desk.log ++ kept desk.debug (readingRecords (Scan.readToken.run desk.cursor)) },
      ?_, ⟨rfl, rfl, rfl⟩, ?_⟩
    · rw [advance, run_bind_of_ok (run_current desk)]
      simp only [ne_eq, last, not_false_eq_true, if_true]
      rw [run_bind_of_ok (run_readToken faces.reached faces.margin)]
      rfl
    · rw [beyond, rest]
      exact faces_readToken faces.reached rfl rfl faces.margin

/-- A record is written where records of its level are kept. -/
theorem run_write (faces : desk.Faces text left) (record : Record) :
    ∃ desk', (write record).run desk = .ok ((), desk') ∧ Moves desk desk' [record] ∧
      desk'.Faces text left := by
  have done : (write record).run desk = .ok ((),
      if desk.debug ∨ record.level = .warning then { desk with log := desk.log ++ [record] }
      else desk) := rfl
  rw [done]
  by_cases written : desk.debug ∨ record.level = .warning
  · rw [if_pos written]
    refine ⟨_, rfl, ⟨rfl, rfl, ?_⟩, faces.congr rfl rfl rfl⟩
    rw [kept_singleton, if_pos written]
  · rw [if_neg written]
    refine ⟨_, rfl, ⟨rfl, rfl, ?_⟩, faces⟩
    rw [kept_singleton, if_neg written, List.append_nil]

/-- The record of a notice is written where records of its level are kept. -/
theorem run_report (faces : desk.Faces text left) (notice : Notice) :
    ∃ desk', (report notice).run desk = .ok ((), desk') ∧
      Moves desk desk' [noticeRecord notice] ∧ desk'.Faces text left :=
  run_write faces _

section

variable {limit : Int}

/-- Assembling the readings from one state on writes the records and comes to assembling the
readings left from another one. -/
structure Leads (limit : Int) (state : State) (left : List (Reading Token)) (records : List Record)
    (state' : State) (left' : List (Reading Token)) : Prop where
  /-- The whole rows of tokens lead to the same state. -/
  assembled : (left.map (·.value)).foldl (State.step limit) state =
    (left'.map (·.value)).foldl (State.step limit) state'
  /-- The whole rows of readings leave the same records, but for those written between. -/
  logged : assemblyRecords limit state left = records ++ assemblyRecords limit state' left'
  /-- The last reading is the same one. -/
  ending : left.getLast? = left'.getLast?

namespace Leads

/-- Nothing has been read. -/
theorem refl (limit : Int) (state : State) (left : List (Reading Token)) :
    Leads limit state left [] state left := ⟨rfl, rfl, rfl⟩

/-- Readings may be assembled in two parts. -/
theorem trans {state state' state'' : State} {left left' left'' : List (Reading Token)}
    {front back : List Record} (first : Leads limit state left front state' left')
    (second : Leads limit state' left' back state'' left'') :
    Leads limit state left (front ++ back) state'' left'' where
  assembled := first.assembled.trans second.assembled
  logged := by rw [first.logged, second.logged, List.append_assoc]
  ending := first.ending.trans second.ending

/-- A token inside the text is assembled while the next one is read: some notices are given before
that, the others after it. -/
theorem reads {state state' : State} {notices : List Notice} (faces : desk.Faces text left)
    (inside : desk.current.lexeme ≠ .endOfText)
    (read : Reads limit state [desk.current] state' notices) :
    Leads limit state left
      ((notices.filter comesFirst).map noticeRecord ++ nextRecords left ++
        (notices.filter (!comesFirst ·)).map noticeRecord) state' (beyond left) := by
  obtain ⟨first, next, more, rfl, held, -, -⟩ := faces.of_inside inside
  obtain ⟨stepped, noticed⟩ := read
  rw [State.allNotices, State.allNotices, List.append_nil] at noticed
  rw [List.foldl_cons, List.foldl_nil] at stepped
  rw [← held] at stepped noticed
  constructor
  · rw [beyond, List.map_cons, List.foldl_cons, stepped]
  · rw [assemblyRecords, noticed, stepped]
    rfl
  · rw [beyond, List.getLast?_cons_cons]

/-- Without a notice, there is nothing between but the records of reading the next token. -/
theorem quiet {state state' : State} (faces : desk.Faces text left)
    (inside : desk.current.lexeme ≠ .endOfText)
    (read : Quiet limit state [desk.current] state') :
    Leads limit state left (nextRecords left) state' (beyond left) := by
  simpa using reads faces inside read

/-- At the end of the text nothing is flattened any more. -/
theorem settled (limit : Int) (frames : List Frame) (run : List Node) (surplus : Nat)
    {ending : Reading Token} (ends : ending.value.lexeme = .endOfText) :
    Leads limit ⟨frames, run, surplus⟩ [ending] [] ⟨frames, run, 0⟩ [ending] where
  assembled := by simp [State.step, ends, State.finish]
  logged := by simp [assemblyRecords, State.notices, ends]
  ending := rfl

/-- The end of the text takes the innermost construct apart first. -/
theorem abandoned (limit : Int) (frame : Frame) (frames : List Frame) (run : List Node)
    {ending : Reading Token} (ends : ending.value.lexeme = .endOfText) :
    Leads limit ⟨frame :: frames, run, 0⟩ [ending] [noticeRecord (frame.notice ending.value)]
      ⟨frames, frame.abandon ending.value run, 0⟩ [ending] where
  assembled := by simp [State.step, ends, State.finish]
  logged := by
    have late (other : Frame) : comesFirst (other.notice ending.value) = false := by
      cases other <;> rfl
    have early : (frames.map (·.notice ending.value)).filter comesFirst = [] := by simp [late]
    simp [assemblyRecords, State.notices, ends, late, early]
  ending := rfl

/-- A closer that the innermost construct cannot use takes it apart, be it the end of the text or a
tag. Its notice comes behind the next reading. -/
theorem refused (limit : Int) {frame : Frame} (frames : List Frame) (run : List Node)
    (faces : desk.Faces text left) (closes : desk.current.lexeme.isCloser = true)
    (unusable : frame.accepts desk.current.lexeme = false) :
    Leads limit ⟨frame :: frames, run, 0⟩ left
      (nextRecords left ++ [noticeRecord (frame.notice desk.current)])
      ⟨frames, frame.abandon desk.current run, 0⟩ (beyond left) := by
  by_cases last : desk.current.lexeme = .endOfText
  · obtain ⟨ending, rfl, held⟩ := faces.of_end last
    rw [← held] at last ⊢
    exact abandoned limit frame frames run last
  · have late : comesFirst (frame.notice desk.current) = false := by cases frame <;> rfl
    have met : Reads limit ⟨frame :: frames, run, 0⟩ [desk.current]
        ⟨frames, frame.abandon desk.current run, 0⟩ [frame.notice desk.current] := by
      generalize desk.current = token at *
      obtain ⟨lexeme, span⟩ := token
      cases lexeme with
      | endOfText => contradiction
      | raw _ | invalid _ | use _ | forStart _ _ | ifStart _ => nomatch closes
      | forEnd | elifTag _ | elseTag | ifEnd =>
        cases frame <;> first | exact ⟨rfl, rfl⟩ | nomatch unusable
    simpa [late] using reads faces last met

end Leads

end

end Parsing

end TextTemplate
