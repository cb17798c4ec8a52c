import TextTemplate.Proofs.DescentCalls

/-!
# The descent agrees with the assembly

Calls of the descent read what the assembly does, and a text is read by one run after the other with
the closers between them that nothing is open for. So reading a text by descent gives the tree of
the text with its tags and the log of the parse. Each token but the last covers a character, so the
length of the text says how many rounds are enough.
-/

namespace TextTemplate.Parsing

open Expression Log Markup Text

/-- All of a text is read as the assembly does: behind a run a closer that nothing is open for
stays, and the next run follows. -/
theorem readAll_comes (limit : Int) {text : String} (rounds : Nat) {desk : Desk}
    {left : List (Reading Token)} (faces : desk.Faces text left) (depth : desk.depth = 0)
    (enough : 2 * left.length < rounds) (run : List Node) :
    Comes limit text desk ⟨[], run, 0⟩ left [] run
      (fun desk' _ => desk'.current.lexeme = .endOfText) ((readAll limit rounds).run desk) := by
  induction rounds generalizing desk left run with
  | zero => omega
  | succ rounds ih =>
    rw [readAll, run_bind_of_ok (run_current desk)]
    by_cases last : desk.current.lexeme = .endOfText
    · rw [if_pos last]
      exact ⟨[], [], desk, left, rfl, .refl desk, faces, last, .refl ..⟩
    · rw [if_neg last]
      obtain ⟨nodes, records, desk₁, left₁, done, moves, ahead, ⟨shorter, closes⟩, leads⟩ :=
        (reads_comes limit text rounds).1 [] run faces depth (by omega)
      rw [run_bind_of_ok done, run_bind_of_ok (run_current desk₁)]
      by_cases ends : desk₁.current.lexeme = .endOfText
      · rw [if_pos ends]
        exact ⟨nodes, records, desk₁, left₁, rfl, moves, ahead, ends, leads⟩
      · rw [if_neg ends]
        obtain ⟨desk₂, written, noticed, same⟩ := run_report ahead (.unexpected desk₁.current)
        obtain ⟨desk₃, advanced, moved, behind⟩ := run_advance same
        have fewer := ahead.length_beyond ends
        have stays : Leads limit ⟨[], nodes.reverse ++ run, 0⟩ left₁
            ([noticeRecord (.unexpected desk₁.current)] ++ nextRecords left₁)
            ⟨[], .unexpected desk₁.current :: (nodes.reverse ++ run), 0⟩ (beyond left₁) := by
          have early : comesFirst (Notice.unexpected desk₁.current) = true := rfl
          have met : Reads limit ⟨[], nodes.reverse ++ run, 0⟩ [desk₁.current]
              ⟨[], .unexpected desk₁.current :: (nodes.reverse ++ run), 0⟩
              [.unexpected desk₁.current] := by
            generalize desk₁.current = token at closes ends
            obtain ⟨lexeme, span⟩ := token
            cases lexeme with
            | endOfText => contradiction
            | raw _ | invalid _ | use _ | forStart _ _ | ifStart _ => nomatch closes
            | forEnd | elifTag _ | elseTag | ifEnd => exact ⟨rfl, rfl⟩
          simpa [early] using Leads.reads ahead ends met
        have through := moves.trans (noticed.trans moved)
        have rest := ih behind (through.depth.trans depth) (by omega)
          ((nodes ++ [Node.unexpected desk₁.current]).reverse ++ run)
        rw [run_bind_of_ok written, run_bind_of_ok advanced]
        have comes := Comes.append (nodes ++ [.unexpected desk₁.current]) through
          (leads.trans stays) (by simpa using rest)
        simpa [Node.dress] using comes

/-- Every token but the last one covers a character. -/
theorem length_readingsFrom_le (c : Cursor) : (readingsFrom c).length ≤ c.rest.length + 1 := by
  fun_induction readingsFrom c with
  | case1 c reading ended => exact Nat.succ_le_succ (Nat.zero_le _)
  | case2 c reading more ih =>
    have shorter : reading.cursor.rest.length < c.rest.length := Scan.readToken_shorter more
    rw [List.length_cons]
    omega

/-- Tags put on do not change the kind of an expression. -/
theorem kind_dress (node : Node) : node.dress.kind = node.kind := by
  cases node <;> rfl

/-- Reading a template by descent gives the tree that the assembly makes of its tokens, with its
tags. -/
theorem readTemplate_eq (limit : Int) {text : String} {rounds : Nat} {desk : Desk}
    {left : List (Reading Token)} (faces : desk.Faces text left) (depth : desk.depth = 0)
    (enough : 2 * left.length < rounds) :
    ∃ desk' left', (readTemplate limit rounds).run desk =
        .ok ((Node.ofTokens limit (left.map (·.value))).dress, desk') ∧
      Moves desk desk' (assemblyRecords limit .initial left) ∧ desk'.Faces text left' := by
  obtain ⟨nodes, records, desk', left', done, moves, ahead, last, leads⟩ :=
    readAll_comes limit rounds faces depth enough []
  obtain ⟨ending, rfl, held⟩ := ahead.of_end last
  rw [List.append_nil] at leads
  have ends : ending.value.lexeme = .endOfText := by rw [held, last]
  have nothing : assemblyRecords limit ⟨[], nodes.reverse, 0⟩ [ending] = [] := by
    simp [assemblyRecords, State.notices, ends]
  have run : ((left.map (·.value)).foldl (State.step limit) .initial).run.reverse = nodes := by
    rw [State.initial, leads.assembled]
    simp [State.step, ends, State.finish]
  have anchor : (left.map (·.value)).getLast? = some desk'.current := by
    rw [List.getLast?_map, leads.ending, ← held]
    rfl
  refine ⟨desk', [ending], ?_, ?_, ahead⟩
  · rw [readTemplate, run_bind_of_ok done, Node.ofTokens, run, anchor, Option.elim_some]
    cases nodes with
    | nil => rfl
    | cons node more =>
      exact run_lift (join_dress (List.cons_ne_nil node more) desk'.current.span) desk'
  · have logged := leads.logged
    rw [nothing, List.append_nil] at logged
    rw [State.initial, logged]
    exact moves

/-- A parse starts at the first reading of the text, which it leaves the records of. -/
theorem ofText_eq (debug : Bool) (text : String) :
    ∃ desk, Desk.ofText debug text = .ok desk ∧ desk.Faces text (readings text) ∧ desk.depth = 0 ∧
      desk.debug = debug ∧
      desk.log = kept debug ((readings text).head?.elim [] readingRecords) := by
  have first : (readings text).head? = some (Scan.readToken.run (.ofText text)) := by
    rw [readings, readingsFrom]
    split <;> rfl
  let blank : Desk := ⟨.ofText text, ⟨.endOfText, .empty .start⟩, 0, 0, debug, []⟩
  have reached : (Cursor.ofText text).Onward blank.cursor := .refl _
  have read := run_readToken reached rfl
  refine ⟨{ blank with
    cursor := (Scan.readToken.run (.ofText text)).cursor
    current := (Scan.readToken.run (.ofText text)).value
    log := [] ++ kept debug (readingRecords (Scan.readToken.run (.ofText text))) }, ?_,
    faces_readToken (.refl _) rfl rfl rfl, rfl, rfl, ?_⟩
  · rw [Desk.ofText, read, Fault.ok_bind]
    rfl
  · rw [first]
    exact List.nil_append _

/-- Reading a text by descent comes to an end, with all records kept or only warnings. It gives the
tree of the text with its tags, and the log is what is to be kept of the log of the parse. -/
theorem parseLogged_eq (debug : Bool) (limit : Int) (text : String) :
    parseLogged debug limit text =
      .ok ((parse limit text).dress, kept debug (parseRecords limit text)) := by
  obtain ⟨desk, started, faces, depth, keeps, opened⟩ := ofText_eq debug text
  have enough : 2 * (readings text).length < 2 * text.length + 3 := by
    have few := length_readingsFrom_le (.ofText text)
    have whole : (Cursor.ofText text).rest.length = text.length := String.length_toList
    rw [readings]
    omega
  obtain ⟨desk₁, left₁, read, moves, behind⟩ := readTemplate_eq limit faces depth enough
  obtain ⟨desk₂, written, wrote, -⟩ := run_write behind ⟨.template, .debug,
    "Parsed " ++ toString text.length ++ " characters of template into " ++
      (parse limit text).dress.kind.name⟩
  have through := moves.trans wrote
  have log : desk₂.log = kept debug (parseRecords limit text) := by
    rw [through.log, opened, keeps, ← kept_append, parseRecords, kind_dress, List.append_assoc]
  rw [parseLogged, started, Fault.ok_bind]
  dsimp only
  have parsed : Node.ofTokens limit ((readings text).map (·.value)) = parse limit text := rfl
  rw [run_bind_of_ok read, parsed, run_bind_of_ok written, ← log]
  rfl

end TextTemplate.Parsing
