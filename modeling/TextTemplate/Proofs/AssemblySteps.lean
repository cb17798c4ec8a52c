import TextTemplate.Expression.Assembly
import TextTemplate.Proofs.Tiling

/-!
# What one token can do to the assembly

Before the end of the text a token moves the assembly in one of a few ways. Every way is listed
once, with the state it starts from, the state it leads to and the notices it leaves, so that a
property of all states is shown way by way.
-/

namespace TextTemplate.Expression

open Text Markup

/-- The frame that an opening tag puts on top of the nodes read before it. -/
def frameOf? (token : Token) : Option (List Node → Frame) :=
  match token.lexeme with
  | .forStart var path => some fun outer => .loop outer var path token.span
  | .ifStart path => some fun outer => .branch outer [] path token.span
  | _ => none

/-- Only the head of a loop and that of a conditional open a construct. -/
theorem opening_cases {token : Token} {frame : List Node → Frame}
    (opens : frameOf? token = some frame) :
    (∃ var path span, token = ⟨.forStart var path, span⟩ ∧
        frame = fun outer => .loop outer var path span) ∨
      ∃ path span, token = ⟨.ifStart path, span⟩ ∧
        frame = fun outer => .branch outer [] path span := by
  obtain ⟨lexeme, span⟩ := token
  cases lexeme with
  | forStart var path => exact .inl ⟨var, path, span, rfl, (Option.some.inj opens).symm⟩
  | ifStart path => exact .inr ⟨path, span, rfl, (Option.some.inj opens).symm⟩
  | endOfText | raw _ | invalid _ | use _ | forEnd | elifTag _ | elseTag | ifEnd =>
    exact absurd opens (Option.some_ne_none frame).symm

/-- The head of a loop or of a conditional opens a construct. -/
theorem frameOf?_of_isOpener {token : Token} (opens : token.lexeme.isOpener = true) :
    ∃ frame, frameOf? token = some frame := by
  obtain ⟨lexeme, span⟩ := token
  cases lexeme with
  | forStart _ _ | ifStart _ => exact ⟨_, rfl⟩
  | endOfText | raw _ | invalid _ | use _ | forEnd | elifTag _ | elseTag | ifEnd => nomatch opens

/-- The node of a token that stands for itself is its node outside of all constructs. -/
theorem loose_of_leaf {token : Token} {node : Node} (stands : Node.leaf? token = some node) :
    Node.loose token = node := by
  rw [Node.loose, stands, Option.getD_some]

/-- A token inside the text moves the assembly from one state to another and leaves notices. -/
inductive Move (limit : Int) : State → Token → State → List Notice → Prop
  /-- A token of a construct that is flattened. -/
  | flattened (frames : List Frame) (run : List Node) (surplus : Nat) (token : Token) :
      Move limit ⟨frames, run, surplus + 1⟩ token
        (State.flatten ⟨frames, run, surplus + 1⟩ token) []
  /-- A token that stands for itself. -/
  | leaf (frames : List Frame) (run : List Node) {token : Token} {node : Node}
      (stands : Node.leaf? token = some node) :
      Move limit ⟨frames, run, 0⟩ token ⟨frames, node :: run, 0⟩ []
  /-- A construct is opened. -/
  | opened (frames : List Frame) (run : List Node) {token : Token} {frame : List Node → Frame}
      (opens : frameOf? token = some frame) (room : (frames.length : Int) < limit) :
      Move limit ⟨frames, run, 0⟩ token ⟨frame run :: frames, [], 0⟩ []
  /-- A construct nested too deep starts to be flattened. -/
  | tooDeep (frames : List Frame) (run : List Node) {token : Token} {frame : List Node → Frame}
      (opens : frameOf? token = some frame) (deep : limit ≤ frames.length) :
      Move limit ⟨frames, run, 0⟩ token ⟨frames, .unexpected token :: run, 1⟩
        [.tooDeep limit token]
  /-- A closer with nothing open to close. -/
  | stray (run : List Node) {token : Token} (closes : token.lexeme.isCloser = true) :
      Move limit ⟨[], run, 0⟩ token ⟨[], .unexpected token :: run, 0⟩ [.unexpected token]
  /-- A loop is closed. -/
  | closedLoop (frames : List Frame) (run outer : List Node) (var : Ident) (path : Path)
      (opening span : Span) :
      Move limit ⟨.loop outer var path opening :: frames, run, 0⟩ ⟨.forEnd, span⟩
        ⟨frames, .loop var path opening span (bodyAfter opening run) :: outer, 0⟩ []
  /-- A conditional gets a further branch. -/
  | furtherBranch (frames : List Frame) (run outer : List Node)
      (earlier : List (Branch (List Node))) (path path' : Path) (span span' : Span) :
      Move limit ⟨.branch outer earlier path span :: frames, run, 0⟩ ⟨.elifTag path', span'⟩
        ⟨.branch outer (⟨path, span, run⟩ :: earlier) path' span' :: frames, [], 0⟩ []
  /-- A conditional gets its alternative. -/
  | lastBranch (frames : List Frame) (run outer : List Node)
      (earlier : List (Branch (List Node))) (path : Path) (span span' : Span) :
      Move limit ⟨.branch outer earlier path span :: frames, run, 0⟩ ⟨.elseTag, span'⟩
        ⟨.alternative outer (⟨path, span, run⟩ :: earlier) span' :: frames, [], 0⟩ []
  /-- A conditional without alternative is closed. -/
  | closedBranch (frames : List Frame) (run outer : List Node)
      (earlier : List (Branch (List Node))) (path : Path) (span span' : Span) :
      Move limit ⟨.branch outer earlier path span :: frames, run, 0⟩ ⟨.ifEnd, span'⟩
        ⟨frames, choiceOf (⟨path, span, run⟩ :: earlier) none span' :: outer, 0⟩ []
  /-- A conditional with an alternative is closed. -/
  | closedAlternative (frames : List Frame) (run outer : List Node)
      (branches : List (Branch (List Node))) (span span' : Span) :
      Move limit ⟨.alternative outer branches span :: frames, run, 0⟩ ⟨.ifEnd, span'⟩
        ⟨frames, choiceOf branches (some ⟨span, run⟩) span' :: outer, 0⟩ []
  /-- A construct meets a closer it cannot use. -/
  | abandoned (frame : Frame) (frames : List Frame) (run : List Node) {token : Token}
      (closes : token.lexeme.isCloser = true) (refused : frame.accepts token.lexeme = false) :
      Move limit ⟨frame :: frames, run, 0⟩ token ⟨frames, frame.abandon token run, 0⟩
        [frame.notice token]

namespace State

/-- A closer that is not the end of the text moves the assembly in one of the ways listed. -/
theorem move_close (limit : Int) (frames : List Frame) (run : List Node) (lexeme : Lexeme)
    (span : Span) (closes : lexeme.isCloser = true) (inside : lexeme ≠ .endOfText) :
    Move limit ⟨frames, run, 0⟩ ⟨lexeme, span⟩ (close ⟨frames, run, 0⟩ ⟨lexeme, span⟩)
      (match frames with
        | [] => [.unexpected ⟨lexeme, span⟩]
        | frame :: _ => if frame.accepts lexeme then [] else [frame.notice ⟨lexeme, span⟩]) := by
  cases frames with
  | nil => exact .stray run closes
  | cons frame frames =>
    cases frame with
    | loop outer var path opening =>
      cases lexeme with
      | forEnd => exact .closedLoop ..
      | endOfText => contradiction
      | elifTag _ | elseTag | ifEnd => exact .abandoned _ _ _ closes rfl
      | raw _ | invalid _ | use _ | forStart _ _ | ifStart _ => nomatch closes
    | branch outer earlier path span =>
      cases lexeme with
      | elifTag _ => exact .furtherBranch ..
      | elseTag => exact .lastBranch ..
      | ifEnd => exact .closedBranch ..
      | endOfText => contradiction
      | forEnd => exact .abandoned _ _ _ closes rfl
      | raw _ | invalid _ | use _ | forStart _ _ | ifStart _ => nomatch closes
    | alternative outer branches span =>
      cases lexeme with
      | ifEnd => exact .closedAlternative ..
      | endOfText => contradiction
      | forEnd | elifTag _ | elseTag => exact .abandoned _ _ _ closes rfl
      | raw _ | invalid _ | use _ | forStart _ _ | ifStart _ => nomatch closes

/-- An opening tag opens a construct or starts to flatten one. -/
theorem move_enter (limit : Int) (frames : List Frame) (run : List Node) {token : Token}
    {frame : List Node → Frame} (opens : frameOf? token = some frame) :
    Move limit ⟨frames, run, 0⟩ token (enter limit ⟨frames, run, 0⟩ token frame)
      (if tooDeep limit ⟨frames, run, 0⟩ then [.tooDeep limit token] else []) := by
  by_cases deep : limit ≤ frames.length
  · have flattens : flatten ⟨frames, run, 0⟩ token = ⟨frames, .unexpected token :: run, 1⟩ := by
      obtain ⟨var, path, span, rfl, rfl⟩ | ⟨path, span, rfl, rfl⟩ := opening_cases opens
      · rfl
      · rfl
    simp only [enter, tooDeep, deep, decide_true, if_true, flattens]
    exact .tooDeep frames run opens deep
  · simp only [enter, tooDeep, deep, decide_false, Bool.false_eq_true, if_false]
    exact .opened frames run opens (by omega)

/-- Every token inside the text moves the assembly in one of the ways listed. -/
theorem move (limit : Int) (state : State) (token : Token)
    (inside : token.lexeme ≠ .endOfText) :
    Move limit state token (state.step limit token) (state.notices limit token) := by
  obtain ⟨frames, run, surplus⟩ := state
  obtain ⟨lexeme, span⟩ := token
  cases surplus with
  | succ surplus =>
    simp only [step, notices, flattening, if_neg inside, Nat.zero_lt_succ, decide_true, if_true]
    exact .flattened frames run surplus _
  | zero =>
    simp only [step, notices, flattening, if_neg inside, Nat.lt_irrefl, decide_false,
      Bool.false_eq_true, if_false]
    cases lexeme with
    | endOfText => contradiction
    | raw _ | invalid _ | use _ => exact .leaf frames run rfl
    | forStart _ _ | ifStart _ => exact move_enter limit frames run rfl
    | forEnd | elifTag _ | elseTag | ifEnd => exact move_close limit frames run _ span rfl inside

/-- What every token inside the text keeps, tokens in a row keep. -/
theorem foldl_keeps {limit : Int} {kept : State → Prop}
    (move : ∀ {state state' : State} {token : Token} {notices : List Notice},
      kept state → Move limit state token state' notices → kept state')
    {state : State} (start : kept state) {read : List Token}
    (inside : ∀ token ∈ read, token.lexeme ≠ .endOfText) :
    kept (read.foldl (step limit) state) := by
  induction read generalizing state with
  | nil => exact start
  | cons token more ih =>
    have moved := State.move limit state token (inside token (by simp))
    exact ih (move start moved) fun other member => inside other (List.mem_cons_of_mem _ member)

/-- The notices on tokens in a row are those on the first ones and then those on the others. -/
theorem allNotices_append (limit : Int) (state : State) (front back : List Token) :
    allNotices limit state (front ++ back) =
      allNotices limit state front ++ allNotices limit (front.foldl (step limit) state) back := by
  induction front generalizing state with
  | nil => rfl
  | cons token more ih => simp [allNotices, ih]

end State

/-- How far a text has been assembled in front of its end. -/
def assembled (limit : Int) (text : String) : State :=
  (contentTokens text).foldl (State.step limit) .initial

/-- The end of a text takes apart what is open in front of it, and nothing else is left to do. -/
theorem parse_eq_finish (limit : Int) (text : String) :
    ∃ stop, tokenize text = contentTokens text ++ [⟨.endOfText, .empty stop⟩] ∧
      parse limit text = .ofRun (.empty stop)
        ((assembled limit text).finish ⟨.endOfText, .empty stop⟩).run.reverse ∧
      parseNotices limit text = State.allNotices limit .initial (contentTokens text) ++
        (assembled limit text).frames.map (·.notice ⟨.endOfText, .empty stop⟩) := by
  obtain ⟨⟨stop, split⟩, -, -⟩ := contentTokens_spec text
  refine ⟨stop, split, ?_, ?_⟩
  · rw [parse, Node.ofTokens, split, List.foldl_append, List.foldl_cons, List.foldl_nil,
      State.step, if_pos rfl, List.getLast?_concat]
    rfl
  · rw [parseNotices, split, State.allNotices_append]
    simp [State.allNotices, State.notices, assembled]

end TextTemplate.Expression
