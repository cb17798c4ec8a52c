import TextTemplate.Proofs.DescentSteps
import TextTemplate.Proofs.Underlay

/-!
# Calls of the descent

Where the assembly keeps the constructs that are open on a stack, the descent is called once for
each of them. Every call does what the assembly does between the same two tokens: it comes back with
the same nodes, their tags put on, it writes the same records in the same order, and it stops in
front of the same reading. A call spends a round and makes calls with the rounds left; two rounds
for each reading in front of it are enough.
-/

namespace TextTemplate.Parsing

open Expression Log Markup Text

/-- Joined by the descent, expressions become what the assembly makes of the run. -/
theorem join_dress {nodes : List Node} (nonempty : nodes ≠ []) (anchor : Span) :
    Tree.join (nodes.map Node.dress) = .ok (Node.ofRun anchor nodes).dress := by
  match nodes with
  | [] => exact absurd rfl nonempty
  | [_] => rfl
  | first :: second :: more =>
    have several : Node.ofRun anchor (first :: second :: more) =
        .concat (first :: second :: more) := rfl
    rw [several, Node.dress, Node.dressAll_eq_map]
    rfl

/-- The body behind a tag is the one that the assembly puts there. -/
theorem bodyBehind_dress (opener : Token) (nodes : List Node) :
    Tree.bodyBehind opener (nodes.map Node.dress) =
      .ok (bodyAfter opener.span nodes.reverse).dress := by
  rw [bodyAfter, List.reverse_reverse]
  cases nodes with
  | nil => rfl
  | cons node more => exact join_dress (List.cons_ne_nil node more) _

/-- A call that starts at a desk in front of readings, where the assembly is in a state, comes back:
with the expressions that the assembly adds on top of the nodes `outer`, in front of the readings
that the assembly has left then, and with the records that it leaves on the way. -/
def Comes (limit : Int) (text : String) (desk : Desk) (state : State)
    (left : List (Reading Token)) (frames : List Frame) (outer : List Node)
    (stops : Desk → List (Reading Token) → Prop) (outcome : Except Fault (List Tree × Desk)) :
    Prop :=
  ∃ (nodes : List Node) (records : List Record) (desk' : Desk) (left' : List (Reading Token)),
    outcome = .ok (nodes.map Node.dress, desk') ∧ Moves desk desk' records ∧
    desk'.Faces text left' ∧ stops desk' left' ∧
    Leads limit state left records ⟨frames, nodes.reverse ++ outer, 0⟩ left'

variable (limit : Int) {text : String}

/-- Asking for the next token never puts more readings in front of a desk. -/
theorem length_beyond_le (left : List (Reading Token)) : (beyond left).length ≤ left.length := by
  match left with
  | [] | [_] => exact Nat.le_refl _
  | _ :: _ :: _ => exact Nat.le_succ _

/-- A call may start behind something that comes back with nothing. -/
theorem Comes.behind {limit : Int} {desk desk₁ : Desk} {state state₁ : State}
    {left left₁ : List (Reading Token)} {front : List Record} {frames : List Frame}
    {outer : List Node} {stops : Desk → List (Reading Token) → Prop}
    {outcome : Except Fault (List Tree × Desk)} (moves : Moves desk desk₁ front)
    (leads : Leads limit state left front state₁ left₁)
    (rest : Comes limit text desk₁ state₁ left₁ frames outer stops outcome) :
    Comes limit text desk state left frames outer stops outcome := by
  obtain ⟨nodes, back, desk', left', done, moved, faces, stopped, leads'⟩ := rest
  exact ⟨nodes, front ++ back, desk', left', done, moves.trans moved, faces, stopped,
    leads.trans leads'⟩

/-- What was read in front of a call comes in front of what the call comes back with. -/
theorem Comes.append {limit : Int} {desk desk₁ : Desk} {state state₁ : State}
    {left left₁ : List (Reading Token)} {front : List Record} {frames : List Frame}
    {outer : List Node} (pieces : List Node) {stops : Desk → List (Reading Token) → Prop}
    {following : Parser (List Tree)} (moves : Moves desk desk₁ front)
    (leads : Leads limit state left front state₁ left₁)
    (rest : Comes limit text desk₁ state₁ left₁ frames (pieces.reverse ++ outer) stops
      (following.run desk₁)) :
    Comes limit text desk state left frames outer stops
      ((do return pieces.map Node.dress ++ (← following)).run desk₁) := by
  obtain ⟨nodes, back, desk', left', done, moved, faces, stopped, leads'⟩ := rest
  refine ⟨pieces ++ nodes, front ++ back, desk', left', ?_, moves.trans moved, faces, stopped, ?_⟩
  · rw [run_bind_of_ok done, List.map_append]
    rfl
  · rw [List.reverse_append, List.append_assoc]
    exact leads.trans leads'

/-- A call may be followed by another one, which starts where the first one stopped. -/
theorem Comes.followed {limit : Int} {desk : Desk} {state : State} {left : List (Reading Token)}
    {frames : List Frame} {outer : List Node} {stops stops' : Desk → List (Reading Token) → Prop}
    {first following : Parser (List Tree)}
    (comes : Comes limit text desk state left frames outer stops (first.run desk))
    (rest : ∀ desk' left' run, desk'.depth = desk.depth → desk'.Faces text left' →
      stops desk' left' →
      Comes limit text desk' ⟨frames, run, 0⟩ left' frames run stops' (following.run desk')) :
    Comes limit text desk state left frames outer stops'
      ((do let pieces ← first; return pieces ++ (← following)).run desk) := by
  obtain ⟨nodes, records, desk', left', done, moves, faces, stopped, leads⟩ := comes
  rw [run_bind_of_ok done]
  exact Comes.append nodes moves leads (rest desk' left' _ moves.depth faces stopped)

/-- What stops a call may be said in a weaker way. -/
theorem Comes.mono {limit : Int} {desk : Desk} {state : State} {left : List (Reading Token)}
    {frames : List Frame} {outer : List Node} {stops stops' : Desk → List (Reading Token) → Prop}
    {outcome : Except Fault (List Tree × Desk)}
    (comes : Comes limit text desk state left frames outer stops outcome)
    (weaker : ∀ desk' left', stops desk' left' → stops' desk' left') :
    Comes limit text desk state left frames outer stops' outcome := by
  obtain ⟨nodes, records, desk', left', done, moves, faces, stopped, leads⟩ := comes
  exact ⟨nodes, records, desk', left', done, moves, faces, weaker _ _ stopped, leads⟩

/-- One token of a construct that is flattened: the assembly and the descent add the same expression
for it, and come to the same count. -/
theorem readFlat_succ (rounds : Nat) {desk desk' : Desk}
    (inside : desk.current.lexeme ≠ .endOfText) (advanced : advance.run desk = .ok ((), desk'))
    (frames : List Frame) (run : List Node) (surplus : Nat) :
    ∃ after : Nat,
      Quiet limit ⟨frames, run, surplus + 1⟩ [desk.current]
        ⟨frames, .loose desk.current :: run, after⟩ ∧
      (readFlat (rounds + 1) (surplus + 1 : Nat)).run desk =
        if after = 0 then .ok ([(Node.loose desk.current).dress], desk')
        else
          (do return (Node.loose desk.current).dress :: (← readFlat rounds after)).run desk' := by
  have first : (readFlat (rounds + 1) (surplus + 1 : Nat)).run desk = _ :=
    run_bind_of_ok (run_current desk)
  simp only [inside, if_false, run_bind_of_ok advanced] at first
  rw [first]
  obtain ⟨cursor, ⟨lexeme, span⟩, level, depth, debug, log⟩ := desk
  cases lexeme with
  | endOfText => contradiction
  | raw _ | invalid _ | use _ => exact ⟨surplus + 1, .single rfl rfl, rfl⟩
  | elifTag _ | elseTag => exact ⟨surplus + 1, .single rfl rfl, rfl⟩
  | forStart _ _ | ifStart _ => exact ⟨surplus + 2, .single rfl rfl, rfl⟩
  | forEnd | ifEnd =>
    refine ⟨surplus, .single rfl rfl, ?_⟩
    cases surplus with
    | zero => rfl
    | succ surplus =>
      have one : ((surplus + 1 + 1 : Nat) : Int) - 1 = (surplus + 1 : Nat) := by omega
      have more : ((surplus + 1 : Nat) : Int) ≠ 0 := by omega
      simp only [Tree.leaf?, Lexeme.isOpener, Lexeme.isEnder, one, more, if_true, if_false,
        Bool.false_eq_true, Nat.succ_ne_zero]
      rfl

/-- While a construct is flattened, the descent flattens what the assembly does. -/
theorem readFlat_comes (rounds : Nat) {desk : Desk} {left : List (Reading Token)}
    (faces : desk.Faces text left) (enough : left.length ≤ rounds) (frames : List Frame)
    (run : List Node) (surplus : Nat) :
    Comes limit text desk ⟨frames, run, surplus + 1⟩ left frames run
      (fun _ left' => left'.length ≤ left.length)
      ((readFlat rounds (surplus + 1 : Nat)).run desk) := by
  induction rounds generalizing desk left run surplus with
  | zero =>
    obtain ⟨first, more, rfl, -, -⟩ := faces.ahead
    exact absurd enough (Nat.not_succ_le_zero _)
  | succ rounds ih =>
    by_cases last : desk.current.lexeme = .endOfText
    · obtain ⟨ending, rfl, held⟩ := faces.of_end last
      refine ⟨[], [], desk, [ending], ?_, .refl desk, faces, Nat.le_refl _, ?_⟩
      · rw [readFlat, run_bind_of_ok (run_current desk)]
        simp only [last, if_true]
        rfl
      · exact .settled limit frames run _ (held ▸ last)
    · obtain ⟨desk', advanced, moves, ahead⟩ := run_advance faces
      obtain ⟨after, flattened, done⟩ :=
        readFlat_succ limit rounds last advanced frames run surplus
      have leads := Leads.quiet faces last flattened
      have fewer := faces.length_beyond last
      rw [done]
      cases after with
      | zero =>
        exact ⟨[.loose desk.current], _, desk', _, rfl, moves, ahead, by omega, leads⟩
      | succ after =>
        have rest := ih ahead (by omega) (.loose desk.current :: run) after
        rw [if_neg (Nat.succ_ne_zero after)]
        refine (Comes.append [.loose desk.current] moves leads rest).mono ?_
        intro _ left' shorter
        omega

/-- The opening tag of a construct is the first one that is taken flat, and is counted. -/
theorem readFlat_opener (rounds : Nat) {desk desk' : Desk}
    (opens : desk.current.lexeme.isOpener = true) (advanced : advance.run desk = .ok ((), desk')) :
    (readFlat (rounds + 1) 0).run desk = (do
      return (Node.loose desk.current).dress :: (← readFlat rounds (0 + 1 : Nat))).run desk' := by
  have first : (readFlat (rounds + 1) 0).run desk = _ := run_bind_of_ok (run_current desk)
  obtain ⟨cursor, ⟨lexeme, span⟩, level, depth, debug, log⟩ := desk
  cases lexeme with
  | forStart _ _ | ifStart _ =>
    simp only [reduceCtorEq, if_false, run_bind_of_ok advanced] at first
    rw [first]
    rfl
  | endOfText | raw _ | invalid _ | use _ | forEnd | elifTag _ | elseTag | ifEnd => nomatch opens

/-- A construct nested too deep is taken flat by both, behind the same warning. -/
theorem readTooDeep_comes {rounds : Nat} {desk : Desk} {left : List (Reading Token)}
    (faces : desk.Faces text left) (opens : desk.current.lexeme.isOpener = true)
    {frames : List Frame} (deep : limit ≤ frames.length) (enough : left.length ≤ rounds)
    (run : List Node) :
    Comes limit text desk ⟨frames, run, 0⟩ left frames run
      (fun _ left' => left'.length < left.length) ((readTooDeep limit rounds).run desk) := by
  have inside : desk.current.lexeme ≠ .endOfText := by
    intro last
    rw [last] at opens
    contradiction
  obtain ⟨warned, written, warns, same⟩ := run_report faces (.tooDeep limit desk.current)
  obtain ⟨desk', advanced, moves, ahead⟩ := run_advance same
  have held : warned.current = desk.current :=
    Option.some.inj (same.head?_eq.symm.trans faces.head?_eq)
  have fewer := faces.length_beyond inside
  obtain ⟨others, rfl⟩ : ∃ others, rounds = others + 1 := ⟨rounds - 1, by omega⟩
  obtain ⟨frame, framed⟩ := frameOf?_of_isOpener opens
  have leads : Leads limit ⟨frames, run, 0⟩ left
      ([noticeRecord (.tooDeep limit desk.current)] ++ nextRecords left)
      ⟨frames, .loose desk.current :: run, 0 + 1⟩ (beyond left) := by
    have early : comesFirst (.tooDeep limit desk.current) = true := rfl
    simpa [early] using Leads.reads faces inside (reads_tooDeep framed deep run)
  have rest := readFlat_comes limit others ahead (by omega) frames (.loose desk.current :: run) 0
  have whole :
      (readTooDeep limit (others + 1)).run desk = (readFlat (others + 1) 0).run warned := by
    rw [readTooDeep, run_bind_of_ok (run_current desk)]
    exact run_bind_of_ok written
  rw [whole, readFlat_opener others (held ▸ opens) advanced, held]
  refine (Comes.append [.loose desk.current] (warns.trans moves) leads rest).mono ?_
  intro _ left' shorter
  omega

/-- No more readings are in front of the desk than before. -/
def NotBack (left : List (Reading Token)) (_ : Desk) (left' : List (Reading Token)) : Prop :=
  left'.length ≤ left.length

/-- A run stops in front of a closer. -/
def StopsAtCloser (left : List (Reading Token)) (desk' : Desk) (left' : List (Reading Token)) :
    Prop :=
  left'.length ≤ left.length ∧ desk'.current.lexeme.isCloser = true

/-- Fewer readings are in front of the desk than before. -/
def UsesToken (left : List (Reading Token)) (_ : Desk) (left' : List (Reading Token)) : Prop :=
  left'.length < left.length

/-- In so many rounds runs are read as the assembly does, if there are two for each reading. -/
def ReadsRuns (text : String) (rounds : Nat) : Prop :=
  ∀ ⦃desk : Desk⦄ ⦃left : List (Reading Token)⦄ (frames : List Frame) (run : List Node),
    desk.Faces text left → desk.depth = frames.length → 2 * left.length ≤ rounds →
    Comes limit text desk ⟨frames, run, 0⟩ left frames run (StopsAtCloser left)
      ((readRun limit rounds).run desk)

/-- In so many rounds loops are read as the assembly does. -/
def ReadsLoops (text : String) (rounds : Nat) : Prop :=
  ∀ ⦃desk : Desk⦄ ⦃left : List (Reading Token)⦄ (frames : List Frame) (run : List Node)
    (var : Ident) (path : Path), desk.Faces text left → desk.depth = frames.length →
    desk.current.lexeme = .forStart var path → frames.length < limit →
    2 * left.length ≤ rounds + 1 →
    Comes limit text desk ⟨frames, run, 0⟩ left frames run (UsesToken left)
      ((readFor limit rounds var path).run desk)

/-- In so many rounds conditionals are read as the assembly does. -/
def ReadsChoices (text : String) (rounds : Nat) : Prop :=
  ∀ ⦃desk : Desk⦄ ⦃left : List (Reading Token)⦄ (frames : List Frame) (run : List Node)
    (path : Path), desk.Faces text left → desk.depth = frames.length →
    desk.current.lexeme = .ifStart path → frames.length < limit →
    2 * left.length ≤ rounds + 1 →
    Comes limit text desk ⟨frames, run, 0⟩ left frames run (UsesToken left)
      ((readIf limit rounds).run desk)

variable {limit}

/-- Behind a tag that opens a body, the body is read as the assembly does, one level deeper. -/
theorem body_comes {rounds : Nat} (runs : ReadsRuns limit text rounds) {desk desk₁ : Desk}
    {left : List (Reading Token)} (faces : desk.Faces text left)
    (inside : desk.current.lexeme ≠ .endOfText) (moves : Moves desk desk₁ (nextRecords left))
    (ahead : desk₁.Faces text (beyond left)) {state : State} {frame : Frame} {frames : List Frame}
    (depth : desk.depth = frames.length)
    (entered : Quiet limit state [desk.current] ⟨frame :: frames, [], 0⟩)
    (enough : 2 * left.length ≤ rounds + 2) :
    ∃ (nodes : List Node) (records : List Record) (desk₂ : Desk) (left₂ : List (Reading Token)),
      (deeper (readRun limit rounds)).run desk₁ = .ok (nodes.map Node.dress, desk₂) ∧
      Moves desk desk₂ records ∧ desk₂.Faces text left₂ ∧ left₂.length < left.length ∧
      desk₂.current.lexeme.isCloser = true ∧
      Leads limit state left records ⟨frame :: frames, nodes.reverse, 0⟩ left₂ := by
  have fewer := faces.length_beyond inside
  have below : ({ desk₁ with depth := desk₁.depth + 1 } : Desk).Faces text (beyond left) :=
    ahead.congr rfl rfl rfl
  have level : desk₁.depth + 1 = (frame :: frames).length := by
    rw [moves.depth, depth, List.length_cons]
  obtain ⟨nodes, records, desk₂, left₂, done, moved, behind, ⟨shorter, closes⟩, leads⟩ :=
    runs (frame :: frames) [] below level (by omega)
  have back : desk₂.depth = desk₁.depth + 1 := moved.depth
  have returned : Moves desk₁ { desk₂ with depth := desk₂.depth - 1 } records :=
    ⟨Nat.sub_eq_of_eq_add back, moved.debug, moved.log⟩
  rw [List.append_nil] at leads
  exact ⟨nodes, _, _, left₂, run_deeper done, moves.trans returned, behind.congr rfl rfl rfl,
    by omega, closes, (Leads.quiet faces inside entered).trans leads⟩

section

variable {desk desk' : Desk} {left : List (Reading Token)} {frame : Frame} (frames : List Frame)
  {outer body : List Node} (faces : desk.Faces text left)
  (moves : Moves desk desk' (nextRecords left)) (ahead : desk'.Faces text (beyond left))

include faces moves ahead

/-- A construct that meets its own closer becomes one expression. -/
theorem closed_comes (inside : desk.current.lexeme ≠ .endOfText) {node : Node}
    (closing : Quiet limit ⟨frame :: frames, body, 0⟩ [desk.current] ⟨frames, node :: outer, 0⟩) :
    Comes limit text desk ⟨frame :: frames, body, 0⟩ left frames outer (NotBack left)
      (.ok ([node.dress], desk')) :=
  ⟨[node], _, desk', _, rfl, moves, ahead, length_beyond_le left,
    Leads.quiet faces inside closing⟩

variable (limit) in
/-- A construct that meets another closer falls apart, and a notice says so. -/
theorem refused_comes (closes : desk.current.lexeme.isCloser = true)
    (unusable : frame.accepts desk.current.lexeme = false) {pieces : List Node}
    (apart : frame.abandon desk.current body = pieces.reverse ++ outer) :
    Comes limit text desk ⟨frame :: frames, body, 0⟩ left frames outer (NotBack left)
      ((do report (frame.notice desk.current); return pieces.map Node.dress).run desk') := by
  obtain ⟨desk'', written, writes, rest⟩ := run_report ahead (frame.notice desk.current)
  refine ⟨pieces, _, desk'', _, ?_, moves.trans writes, rest, length_beyond_le left, ?_⟩
  · rw [run_bind_of_ok written]
    rfl
  · rw [← apart]
    exact Leads.refused limit frames body faces closes unusable

end

/-- A loop is read as the assembly does, when its body is. -/
theorem readFor_comes {rounds : Nat} (runs : ReadsRuns limit text rounds) :
    ReadsLoops limit text (rounds + 1) := by
  intro desk left frames run var path faces depth opens room enough
  have inside : desk.current.lexeme ≠ .endOfText := by simp [opens]
  have opener : desk.current = ⟨.forStart var path, desk.current.span⟩ := by rw [← opens]
  obtain ⟨desk₁, advanced, moves₁, ahead⟩ := run_advance faces
  have framed : frameOf? desk.current =
      some fun outer => .loop outer var path desk.current.span := by rw [frameOf?, opens]
  have shallow : frames.length < limit.toNat := by omega
  obtain ⟨nodes, records, desk₂, left₂, body, moves₂, behind, fewer, closes, leads⟩ :=
    body_comes runs faces inside moves₁ ahead depth (.opening framed frames run shallow) enough
  obtain ⟨desk₃, closed, moves₃, rest⟩ := run_advance behind
  rw [readFor, run_bind_of_ok (run_current desk), run_bind_of_ok advanced, run_bind_of_ok body,
    run_bind_of_ok (run_current desk₂), run_bind_of_ok closed]
  refine (Comes.behind moves₂ leads ?_).mono fun _ _ notBack => Nat.lt_of_le_of_lt notBack fewer
  by_cases ends : desk₂.current.lexeme = .forEnd
  · have closer : desk₂.current = ⟨.forEnd, desk₂.current.span⟩ := by rw [← ends]
    have closing : Quiet limit ⟨.loop run var path desk.current.span :: frames, nodes.reverse, 0⟩
        [desk₂.current] ⟨frames, .loop var path desk.current.span desk₂.current.span
          (bodyAfter desk.current.span nodes.reverse) :: run, 0⟩ := by
      rw [closer]
      exact .single rfl rfl
    have comes := closed_comes frames behind moves₃ rest (by simp [ends]) closing
    rw [if_pos ends, run_bind_of_ok (run_lift (bodyBehind_dress _ _) _)]
    rwa [Node.dress, ← opener, ← closer] at comes
  · have unusable : (Frame.loop run var path desk.current.span).accepts desk₂.current.lexeme =
        false := by
      generalize desk₂.current.lexeme = lexeme at ends
      cases lexeme <;> first | rfl | contradiction
    have apart : (Frame.loop run var path desk.current.span).abandon desk₂.current nodes.reverse =
        (.unexpected desk.current :: (nodes ++ [.unexpected desk₂.current])).reverse ++ run := by
      rw [Frame.abandon, ← opener]
      simp
    have comes := refused_comes limit frames behind moves₃ rest closes unusable apart
    rw [if_neg ends]
    rwa [List.map_cons, List.map_append] at comes

/-- The branches of a conditional, the newest first, behind the tags that belong there. -/
def taggedRows (rows : List (Branch (List Node))) : List (Tagged Tree) :=
  (Conditional.tagged (rows.reverse.map fun row => row.map (bodyAfter row.span))).map
    (·.map Node.dress)

/-- A further branch stands behind an elif tag. -/
theorem taggedRows_cons (path : Path) (span : Span) (body : List Node)
    {rows : List (Branch (List Node))} (further : rows ≠ []) :
    taggedRows (⟨path, span, body⟩ :: rows) =
      taggedRows rows ++ [⟨⟨.elifTag path, span⟩, (bodyAfter span body).dress⟩] := by
  obtain ⟨first, more, split⟩ := List.exists_cons_of_ne_nil (List.reverse_ne_nil_iff.mpr further)
  simp [taggedRows, split, Conditional.tagged, Tagged.map, Branch.map]

/-- A conditional that is closed has the branches that were read, with their tags put on. -/
theorem dress_choiceOf (rows : List (Branch (List Node)))
    (otherwise : Option (Alternative (List Node))) (closing : Span) :
    (choiceOf rows otherwise closing).dress =
      .choice (taggedRows rows)
        (otherwise.map fun last => ⟨⟨.elseTag, last.span⟩, (bodyAfter last.span last.body).dress⟩)
        ⟨.ifEnd, closing⟩ := by
  rw [choiceOf, Node.dress_choice]
  cases otherwise <;> rfl

/-- Branches are taken apart on top of whatever was read before. -/
theorem scattered_eq (outer : List Node) (rows : List (Branch (List Node))) :
    scattered outer rows = scattered [] rows ++ outer :=
  scattered_append [] outer rows

/-- The pieces of a further branch come behind those of the branches before. -/
theorem map_dress_scattered (path : Path) (span : Span) (body : List Node)
    (rows : List (Branch (List Node))) :
    (scattered [] (⟨path, span, body⟩ :: rows)).reverse.map Node.dress =
      (scattered [] rows).reverse.map Node.dress ++
        .unexpected (tagAfter rows path span) :: body.reverse.map Node.dress := by
  simp [scattered, Node.dress]

/-- At a desk behind the body of a branch, the rest of the conditional is read as the assembly does.
The branches before are `earlier`, the newest first, and in front of all stand the nodes `outer`. -/
def RestComes (limit : Int) (text : String) (rounds : Nat) (opener : Token) (desk : Desk)
    (left : List (Reading Token)) (frames : List Frame) (outer body : List Node)
    (earlier : List (Branch (List Node))) (path : Path) (span : Span) : Prop :=
  Comes limit text desk ⟨.branch outer earlier path span :: frames, body, 0⟩ left frames outer
    (NotBack left)
    ((readBranches limit rounds opener (taggedRows (⟨path, span, body⟩ :: earlier)) none
      ((scattered [] (⟨path, span, body⟩ :: earlier)).reverse.map Node.dress)).run desk)

/-- In so many rounds the rest of a conditional is read as the assembly does, behind the body of any
of its branches. -/
def ReadsBranches (limit : Int) (text : String) (rounds : Nat) : Prop :=
  ∀ ⦃desk : Desk⦄ ⦃left : List (Reading Token)⦄ (frames : List Frame) (outer body : List Node)
    (earlier : List (Branch (List Node))) (path : Path) (span : Span) (opener : Token),
    desk.Faces text left → desk.depth = frames.length → desk.current.lexeme.isCloser = true →
    (Frame.branch outer earlier path span).start = opener.span.start →
    2 * left.length ≤ rounds + 1 →
    RestComes limit text rounds opener desk left frames outer body earlier path span

/-- Behind the body of an alternative, a conditional ends. -/
theorem readBranches_alternative (limit : Int) (rounds : Nat) {desk : Desk}
    {left : List (Reading Token)} (frames : List Frame) (outer body : List Node)
    (rows : List (Branch (List Node))) (span : Span) {opener : Token}
    (faces : desk.Faces text left) (closes : desk.current.lexeme.isCloser = true)
    (opened : (Frame.alternative outer rows span).start = opener.span.start) :
    Comes limit text desk ⟨.alternative outer rows span :: frames, body, 0⟩ left frames outer
      (NotBack left)
      ((readBranches limit (rounds + 1) opener (taggedRows rows)
        (some ⟨⟨.elseTag, span⟩, (bodyAfter span body).dress⟩)
        ((body ++ .unexpected ⟨.elseTag, span⟩ :: scattered [] rows).reverse.map Node.dress)).run
          desk) := by
  obtain ⟨desk', advanced, moves, ahead⟩ := run_advance faces
  rw [readBranches, run_bind_of_ok (run_current desk), run_bind_of_ok advanced]
  by_cases ends : desk.current.lexeme = .ifEnd
  · have closer : desk.current = ⟨.ifEnd, desk.current.span⟩ := by rw [← ends]
    have closing : Quiet limit ⟨.alternative outer rows span :: frames, body, 0⟩ [desk.current]
        ⟨frames, choiceOf rows (some ⟨span, body⟩) desk.current.span :: outer, 0⟩ := by
      rw [closer]
      exact .single rfl rfl
    have comes := closed_comes frames faces moves ahead (by simp [ends]) closing
    rw [dress_choiceOf, ← closer] at comes
    simp only [ends]
    exact comes
  · have unusable : (Frame.alternative outer rows span).accepts desk.current.lexeme = false := by
      generalize desk.current.lexeme = lexeme at ends
      cases lexeme <;> first | rfl | contradiction
    have apart : (Frame.alternative outer rows span).abandon desk.current body =
        ((body ++ Node.unexpected ⟨.elseTag, span⟩ :: scattered [] rows).reverse ++
          [Node.unexpected desk.current]).reverse ++ outer := by
      simp [Frame.abandon, scattered_eq outer rows]
    have comes := refused_comes limit frames faces moves ahead closes unusable apart
    rw [Frame.notice, opened, List.map_append] at comes
    split
    · contradiction
    · contradiction
    · next same => exact absurd same ends
    · exact comes

section

variable {rounds : Nat} (runs : ReadsRuns limit text rounds) {desk : Desk}
  {left : List (Reading Token)} {frames : List Frame} {outer body : List Node}
  {earlier : List (Branch (List Node))} {path : Path} {span : Span} {opener : Token}
  (faces : desk.Faces text left) (depth : desk.depth = frames.length)
  (opened : (Frame.branch outer earlier path span).start = opener.span.start)
  (enough : 2 * left.length ≤ rounds + 2)

include faces opened

/-- Behind the body of a branch, a conditional ends without an alternative. -/
theorem readBranches_last (closes : desk.current.lexeme.isCloser = true)
    (further : ∀ condition, desk.current.lexeme ≠ .elifTag condition)
    (last : desk.current.lexeme ≠ .elseTag) :
    RestComes limit text (rounds + 1) opener desk left frames outer body earlier path span := by
  obtain ⟨desk₁, advanced, moves₁, ahead⟩ := run_advance faces
  rw [RestComes, readBranches, run_bind_of_ok (run_current desk), run_bind_of_ok advanced]
  cases met : desk.current.lexeme with
  | raw _ | invalid _ | use _ | forStart _ _ | ifStart _ =>
    rw [met] at closes
    nomatch closes
  | elifTag condition => exact absurd met (further condition)
  | elseTag => exact absurd met last
  | ifEnd =>
    have closer : desk.current = ⟨.ifEnd, desk.current.span⟩ := by rw [← met]
    have closing : Quiet limit ⟨.branch outer earlier path span :: frames, body, 0⟩ [desk.current]
        ⟨frames, choiceOf (⟨path, span, body⟩ :: earlier) none desk.current.span :: outer, 0⟩ := by
      rw [closer]
      exact .single rfl rfl
    have comes := closed_comes frames faces moves₁ ahead (by simp [met]) closing
    rw [dress_choiceOf, ← closer] at comes
    exact comes
  | endOfText | forEnd =>
    have unusable : (Frame.branch outer earlier path span).accepts desk.current.lexeme = false := by
      rw [met]
      rfl
    have apart : (Frame.branch outer earlier path span).abandon desk.current body =
        ((scattered [] (⟨path, span, body⟩ :: earlier)).reverse ++
          [Node.unexpected desk.current]).reverse ++ outer := by
      simp [Frame.abandon, scattered, scattered_eq outer earlier]
    have comes := refused_comes limit frames faces moves₁ ahead closes unusable apart
    rw [Frame.notice, opened, List.map_append] at comes
    exact comes

include runs depth enough

/-- Behind the body of a branch, a further branch follows, and what is behind it. -/
theorem readBranches_further (rest : ReadsBranches limit text rounds) {condition : Path}
    (met : desk.current.lexeme = .elifTag condition) :
    RestComes limit text (rounds + 1) opener desk left frames outer body earlier path span := by
  have inside : desk.current.lexeme ≠ .endOfText := by simp [met]
  have closer : desk.current = ⟨.elifTag condition, desk.current.span⟩ := by rw [← met]
  obtain ⟨desk₁, advanced, moves₁, ahead⟩ := run_advance faces
  have entered : Quiet limit ⟨.branch outer earlier path span :: frames, body, 0⟩ [desk.current]
      ⟨.branch outer (⟨path, span, body⟩ :: earlier) condition desk.current.span :: frames,
        [], 0⟩ := by
    rw [closer]
    exact .furtherBranch ..
  obtain ⟨nodes, records, desk₂, left₂, read, moves₂, behind, fewer, closes, leads⟩ :=
    body_comes runs faces inside moves₁ ahead depth entered enough
  have tag : tagAfter (⟨path, span, body⟩ :: earlier) condition desk.current.span = desk.current :=
    closer.symm
  have comes := rest frames outer nodes.reverse (⟨path, span, body⟩ :: earlier) condition
    desk.current.span opener behind (moves₂.depth.trans depth) closes opened (by omega)
  rw [RestComes, taggedRows_cons _ _ _ (List.cons_ne_nil _ _), ← closer, map_dress_scattered, tag,
    List.reverse_reverse] at comes
  rw [RestComes]
  refine (Comes.behind moves₂ leads ?_).mono fun _ _ notBack =>
    Nat.le_trans notBack (Nat.le_of_lt fewer)
  rw [readBranches, run_bind_of_ok (run_current desk), run_bind_of_ok advanced, met]
  dsimp only
  rw [run_bind_of_ok read, run_bind_of_ok (run_lift (bodyBehind_dress _ _) _)]
  exact comes

/-- Behind the body of a branch, the alternative follows, and the end behind it. -/
theorem readBranches_otherwise (met : desk.current.lexeme = .elseTag) :
    RestComes limit text (rounds + 1) opener desk left frames outer body earlier path span := by
  have inside : desk.current.lexeme ≠ .endOfText := by simp [met]
  have closer : desk.current = ⟨.elseTag, desk.current.span⟩ := by rw [← met]
  obtain ⟨desk₁, advanced, moves₁, ahead⟩ := run_advance faces
  have entered : Quiet limit ⟨.branch outer earlier path span :: frames, body, 0⟩ [desk.current]
      ⟨.alternative outer (⟨path, span, body⟩ :: earlier) desk.current.span :: frames,
        [], 0⟩ := by
    rw [closer]
    exact .lastBranch ..
  obtain ⟨nodes, records, desk₂, left₂, read, moves₂, behind, fewer, closes, leads⟩ :=
    body_comes runs faces inside moves₁ ahead depth entered enough
  have something := behind.length_pos
  obtain ⟨others, rfl⟩ : ∃ others, rounds = others + 1 := ⟨rounds - 1, by omega⟩
  have pieces : (nodes.reverse ++ Node.unexpected ⟨.elseTag, desk.current.span⟩ ::
        scattered [] (⟨path, span, body⟩ :: earlier)).reverse.map Node.dress =
      (scattered [] (⟨path, span, body⟩ :: earlier)).reverse.map Node.dress ++
        .unexpected desk.current :: nodes.map Node.dress := by
    simp [← closer, Node.dress]
  have comes := readBranches_alternative limit others frames outer nodes.reverse
    (⟨path, span, body⟩ :: earlier) desk.current.span behind closes opened
  rw [pieces, ← closer] at comes
  rw [RestComes]
  refine (Comes.behind moves₂ leads ?_).mono fun _ _ notBack =>
    Nat.le_trans notBack (Nat.le_of_lt fewer)
  rw [readBranches, run_bind_of_ok (run_current desk), run_bind_of_ok advanced, met]
  dsimp only
  rw [run_bind_of_ok read, run_bind_of_ok (run_lift (bodyBehind_dress _ _) _)]
  exact comes

end

/-- The rest of a conditional is read as the assembly does, when bodies are, and what is behind
them. -/
theorem readBranches_comes {rounds : Nat} (runs : ReadsRuns limit text rounds)
    (rest : ReadsBranches limit text rounds) : ReadsBranches limit text (rounds + 1) := by
  intro desk left frames outer body earlier path span opener faces depth closes opened enough
  by_cases last : desk.current.lexeme = .elseTag
  · exact readBranches_otherwise runs faces depth opened enough last
  · by_cases further : ∃ condition, desk.current.lexeme = .elifTag condition
    · obtain ⟨condition, met⟩ := further
      exact readBranches_further runs faces depth opened enough rest met
    · exact readBranches_last faces opened closes (not_exists.mp further) last

/-- A conditional is read as the assembly does, when its first body is, and what is behind it. -/
theorem readIf_comes {rounds : Nat} (runs : ReadsRuns limit text rounds)
    (branches : ReadsBranches limit text rounds) : ReadsChoices limit text (rounds + 1) := by
  intro desk left frames run path faces depth opens room enough
  have inside : desk.current.lexeme ≠ .endOfText := by simp [opens]
  have opener : desk.current = ⟨.ifStart path, desk.current.span⟩ := by rw [← opens]
  obtain ⟨desk₁, advanced, moves₁, ahead⟩ := run_advance faces
  have framed : frameOf? desk.current =
      some fun outer => .branch outer [] path desk.current.span := by rw [frameOf?, opens]
  have shallow : frames.length < limit.toNat := by omega
  obtain ⟨nodes, records, desk₂, left₂, body, moves₂, behind, fewer, closes, leads⟩ :=
    body_comes runs faces inside moves₁ ahead depth (.opening framed frames run shallow) enough
  have comes := branches frames run nodes.reverse [] path desk.current.span desk.current behind
    (moves₂.depth.trans depth) closes rfl (by omega)
  have first : taggedRows [⟨path, desk.current.span, nodes.reverse⟩] =
      [⟨⟨.ifStart path, desk.current.span⟩, (bodyAfter desk.current.span nodes.reverse).dress⟩] :=
    rfl
  have tag : tagAfter [] path desk.current.span = desk.current := opener.symm
  rw [RestComes, first, ← opener, map_dress_scattered, tag, List.reverse_reverse] at comes
  refine (Comes.behind moves₂ leads ?_).mono fun _ _ notBack => Nat.lt_of_le_of_lt notBack fewer
  rw [readIf, run_bind_of_ok (run_current desk), run_bind_of_ok advanced, run_bind_of_ok body,
    run_bind_of_ok (run_lift (bodyBehind_dress _ _) _)]
  exact comes

/-- A token that stands for itself is an expression for both. -/
theorem leafOf_eq {token : Token} (closes : token.lexeme.isCloser = false)
    (opens : token.lexeme.isOpener = false) : leafOf token = .ok (Node.loose token).dress := by
  obtain ⟨lexeme, span⟩ := token
  cases lexeme with
  | raw _ | invalid _ | use _ => rfl
  | forStart _ _ | ifStart _ => nomatch opens
  | endOfText | forEnd | elifTag _ | elseTag | ifEnd => nomatch closes

/-- A run is read as the assembly does, when constructs and shorter runs are. -/
theorem readRun_comes {rounds : Nat} (runs : ReadsRuns limit text rounds)
    (loops : ReadsLoops limit text rounds) (choices : ReadsChoices limit text rounds) :
    ReadsRuns limit text (rounds + 1) := by
  intro desk left frames run faces depth enough
  rw [readRun, run_bind_of_ok (run_current desk)]
  by_cases closes : desk.current.lexeme.isCloser = true
  · rw [if_pos closes]
    exact ⟨[], [], desk, left, rfl, .refl desk, faces, ⟨Nat.le_refl _, closes⟩, .refl ..⟩
  · rw [if_neg closes]
    have behind (desk' : Desk) (left' : List (Reading Token)) (run' : List Node)
        (same : desk'.depth = desk.depth) (faces' : desk'.Faces text left')
        (used : UsesToken left desk' left') :
        Comes limit text desk' ⟨frames, run', 0⟩ left' frames run' (StopsAtCloser left)
          ((readRun limit rounds).run desk') := by
      rw [UsesToken] at used
      refine (runs frames run' faces' (same.trans depth) (by omega)).mono fun _ left'' stopped => ?_
      exact ⟨stopped.1.trans (Nat.le_of_lt used), stopped.2⟩
    have found : (get : Parser Desk).run desk = .ok (desk, desk) := rfl
    cases met : desk.current.lexeme with
    | endOfText | forEnd | elifTag _ | elseTag | ifEnd => simp [met, Lexeme.isCloser] at closes
    | raw _ | invalid _ | use _ =>
      have inside : desk.current.lexeme ≠ .endOfText := by simp [met]
      obtain ⟨desk₁, advanced, moves, ahead⟩ := run_advance faces
      have fewer := faces.length_beyond inside
      have stands : Quiet limit ⟨frames, run, 0⟩ [desk.current]
          ⟨frames, .loose desk.current :: run, 0⟩ := by
        generalize desk.current = token at met
        obtain ⟨lexeme, span⟩ := token
        subst met
        exact .single rfl rfl
      have leaf : leafOf desk.current = .ok (Node.loose desk.current).dress :=
        leafOf_eq (by simp [met, Lexeme.isCloser]) (by simp [met, Lexeme.isOpener])
      dsimp only
      rw [run_bind_of_ok (run_lift leaf desk), run_bind_of_ok advanced]
      exact Comes.append [.loose desk.current] moves (Leads.quiet faces inside stands)
        (behind desk₁ _ _ moves.depth ahead (by rw [UsesToken]; omega))
    | forStart var path =>
      dsimp only
      rw [run_bind_of_ok found]
      by_cases deep : limit ≤ desk.depth
      · rw [if_pos deep]
        have opens : desk.current.lexeme.isOpener = true := by rw [met]; rfl
        exact (readTooDeep_comes limit faces opens (depth ▸ deep) (by omega) run).followed behind
      · rw [if_neg deep]
        exact (loops frames run var path faces depth met (by omega) enough).followed behind
    | ifStart path =>
      dsimp only
      rw [run_bind_of_ok found]
      by_cases deep : limit ≤ desk.depth
      · rw [if_pos deep]
        have opens : desk.current.lexeme.isOpener = true := by rw [met]; rfl
        exact (readTooDeep_comes limit faces opens (depth ▸ deep) (by omega) run).followed behind
      · rw [if_neg deep]
        exact (choices frames run path faces depth met (by omega) enough).followed behind

/-- With two rounds for each reading, every call has rounds enough. -/
theorem reads_comes (limit : Int) (text : String) (rounds : Nat) :
    ReadsRuns limit text rounds ∧ ReadsLoops limit text rounds ∧ ReadsChoices limit text rounds ∧
      ReadsBranches limit text rounds := by
  induction rounds with
  | zero =>
    refine ⟨?_, ?_, ?_, ?_⟩
    · intro desk left frames run faces depth enough
      have something := faces.length_pos
      omega
    · intro desk left frames run var path faces depth opens room enough
      have something := faces.length_pos
      omega
    · intro desk left frames run path faces depth opens room enough
      have something := faces.length_pos
      omega
    · intro desk left frames outer body earlier path span opener faces depth closes opened enough
      have something := faces.length_pos
      omega
  | succ rounds ih =>
    obtain ⟨runs, loops, choices, branches⟩ := ih
    exact ⟨readRun_comes runs loops choices, readFor_comes runs, readIf_comes runs branches,
      readBranches_comes runs branches⟩

end TextTemplate.Parsing
