import TextTemplate.Proofs.AssemblySteps
import TextTemplate.Proofs.BlockTruncation

/-!
# Well-formed blocks are assembled into their trees

The tokens of a derivation are assembled into the tree it stands for, cut off where the constructs
that are open leave no more room, in front of whatever was read before. Every block that is cut off
leaves one notice, and nothing else does. Where there is room for the whole depth of a derivation,
nothing is cut off and there is no notice.
-/

namespace TextTemplate.Expression

open Text Markup

namespace Block

/-- The trees of blocks in a row as the assembly keeps them, the newest first. -/
def rowRun (row : List Block) : List Node := (rowNodes row).reverse

/-- A branch as the assembly keeps it. -/
def branchRun (branch : Branch (List Block)) : Branch (List Node) := branch.map rowRun

/-- No blocks, no nodes. -/
@[simp] theorem rowRun_nil : rowRun [] = [] := rfl

/-- The node of the last block is the newest one. -/
theorem rowRun_concat (row : List Block) (block : Block) :
    rowRun (row ++ [block]) = block.node :: rowRun row := by
  simp [rowRun, rowNodes_eq_map]

/-- Nodes kept with the newest first are joined in their order. -/
theorem bodyAfter_rowRun (opening : Span) (row : List Block) :
    bodyAfter opening (rowRun row) = .ofRun (.empty opening.stop) (rowNodes row) := by
  rw [bodyAfter, rowRun, List.reverse_reverse]

/-- The branches of a conditional, kept with the newest first, are joined in their order. -/
theorem choiceOf_reverse (nodes : List Block → List Node) (branches : List (Branch (List Block)))
    (otherwise : Option (Alternative (List Block))) (closing : Span) :
    choiceOf (branches.map fun branch => branch.map fun body => (nodes body).reverse).reverse
        (otherwise.map fun alternative => alternative.map fun body => (nodes body).reverse)
        closing =
      .choice
        (branches.map fun branch =>
          branch.map fun body => .ofRun (.empty branch.span.stop) (nodes body))
        (otherwise.map fun alternative =>
          alternative.map fun body => .ofRun (.empty alternative.span.stop) (nodes body))
        closing := by
  have joined (span : Span) (body : List Block) :
      bodyAfter span (nodes body).reverse = .ofRun (.empty span.stop) (nodes body) := by
    rw [bodyAfter, List.reverse_reverse]
  rw [choiceOf, List.reverse_reverse, List.map_map, Option.map_map]
  simp [Function.comp_def, Branch.map, Alternative.map, joined]

/-- The branches of a conditional, kept with the newest first, make the tree of the conditional. -/
theorem choiceOf_branchRun (first : Branch (List Block)) (others : List (Branch (List Block)))
    (otherwise : Option (Alternative (List Block))) (closing : Span) :
    choiceOf ((first :: others).map branchRun).reverse
        (otherwise.map fun alternative => alternative.map rowRun) closing =
      (choice first others otherwise closing).node := by
  rw [node, elifNodes_eq_map, elseNode_eq_map]
  exact choiceOf_reverse rowNodes (first :: others) otherwise closing

/-- The branches of a conditional that is cut off, kept with the newest first, make its tree. -/
theorem choiceOf_cut (first : Branch (List Block)) (others : List (Branch (List Block)))
    (otherwise : Option (Alternative (List Block))) (closing : Span) (room : Nat) :
    [choiceOf
        ((first :: others).map fun branch =>
          branch.map fun body => (rowCut body room).reverse).reverse
        (otherwise.map fun alternative => alternative.map fun body => (rowCut body room).reverse)
        closing] =
      (choice first others otherwise closing).cut (room + 1) := by
  rw [cut, elifCut_eq_map, elseCut_eq_map, choiceOf_reverse]
  rfl

end Block

/-- Reading the tokens leads from one state to the other and leaves the notices. -/
def Reads (limit : Int) (state : State) (read : List Token) (state' : State)
    (notices : List Notice) : Prop :=
  read.foldl (State.step limit) state = state' ∧ State.allNotices limit state read = notices

namespace Reads

variable {limit : Int} {state middle state' : State} {front back : List Token}
  {notices notices' : List Notice}

/-- What is read in a row leaves the notices of both parts. -/
theorem append (first : Reads limit state front middle notices)
    (second : Reads limit middle back state' notices') :
    Reads limit state (front ++ back) state' (notices ++ notices') := by
  obtain ⟨reached, noticed⟩ := first
  obtain ⟨reached', noticed'⟩ := second
  constructor
  · rw [List.foldl_append, reached, reached']
  · rw [State.allNotices_append, noticed, reached, noticed']

end Reads

/-- Reading the tokens leads from one state to the other without a notice. -/
def Quiet (limit : Int) (state : State) (read : List Token) (state' : State) : Prop :=
  read.foldl (State.step limit) state = state' ∧ State.allNotices limit state read = []

namespace Quiet

variable {limit : Int} {state middle state' : State} {front back : List Token}

/-- Reading nothing is quiet. -/
theorem refl (limit : Int) (state : State) : Quiet limit state [] state := ⟨rfl, rfl⟩

/-- Two quiet readings in a row are quiet. -/
theorem append (first : Quiet limit state front middle) (second : Quiet limit middle back state') :
    Quiet limit state (front ++ back) state' :=
  Reads.append first second

/-- A token without notice is read quietly. -/
theorem single {token : Token} (reached : state.step limit token = state')
    (silent : state.notices limit token = []) : Quiet limit state [token] state' := by
  constructor
  · exact reached
  · rw [State.allNotices, silent, State.allNotices, List.append_nil]

/-- Behind a quiet reading, the notices are those of what follows. -/
theorem reads {notices : List Notice} (first : Quiet limit state front middle)
    (second : Reads limit middle back state' notices) :
    Reads limit state (front ++ back) state' notices :=
  Reads.append first second

/-- Where there is room, an opening tag opens its construct quietly. -/
theorem opening {token : Token} {frame : List Node → Frame} (opens : frameOf? token = some frame)
    (frames : List Frame) (run : List Node) (room : frames.length < limit.toNat) :
    Quiet limit ⟨frames, run, 0⟩ [token] ⟨frame run :: frames, [], 0⟩ := by
  have shallow : ¬limit ≤ frames.length := by omega
  obtain ⟨var, path, span, rfl, rfl⟩ | ⟨path, span, rfl, rfl⟩ := opening_cases opens
  all_goals
    apply single
    · simp [State.step, State.flattening, State.enter, State.tooDeep, shallow]
    · simp [State.notices, State.flattening, State.tooDeep, shallow]

/-- An elif tag quietly ends a branch and starts the next one. -/
theorem furtherBranch (limit : Int) (frames : List Frame) (run outer : List Node)
    (earlier : List (Branch (List Node))) (path path' : Path) (span span' : Span) :
    Quiet limit ⟨.branch outer earlier path span :: frames, run, 0⟩ [⟨.elifTag path', span'⟩]
      ⟨.branch outer (⟨path, span, run⟩ :: earlier) path' span' :: frames, [], 0⟩ :=
  single rfl rfl

/-- An else tag quietly ends the last branch and starts the alternative. -/
theorem lastBranch (limit : Int) (frames : List Frame) (run outer : List Node)
    (earlier : List (Branch (List Node))) (path : Path) (span span' : Span) :
    Quiet limit ⟨.branch outer earlier path span :: frames, run, 0⟩ [⟨.elseTag, span'⟩]
      ⟨.alternative outer (⟨path, span, run⟩ :: earlier) span' :: frames, [], 0⟩ :=
  single rfl rfl

end Quiet

/-- Tokens whose opening and closing tags balance, counted without regard to their kind. Where a
construct is being flattened, they are kept one by one, without a notice, and the count is the same
behind them. -/
def Balanced (limit : Int) (tokens : List Token) : Prop :=
  ∀ (frames : List Frame) (run : List Node) (surplus : Nat),
    Quiet limit ⟨frames, run, surplus + 1⟩ tokens
      ⟨frames, (tokens.map .loose).reverse ++ run, surplus + 1⟩

namespace Balanced

variable {limit : Int}

/-- No tokens balance. -/
theorem nil : Balanced limit [] := fun _ _ _ => .refl _ _

/-- Balanced tokens in a row balance. -/
theorem append {front back : List Token} (first : Balanced limit front)
    (second : Balanced limit back) : Balanced limit (front ++ back) := by
  intro frames run surplus
  have read := (first frames run surplus).append (second frames _ surplus)
  rwa [← List.append_assoc, ← List.reverse_append, ← List.map_append] at read

/-- Behind an opening tag that is flattened, balanced tokens and a closing tag of either kind bring
the count back to what it was. -/
theorem enclosed {opener closer : Token} {inner : List Token} (balanced : Balanced limit inner)
    (closes : closer.lexeme = .forEnd ∨ closer.lexeme = .ifEnd) {frames : List Frame}
    {run : List Node} {surplus : Nat} {notices : List Notice}
    (opened : Reads limit ⟨frames, run, surplus⟩ [opener]
      ⟨frames, .loose opener :: run, surplus + 1⟩ notices) :
    Reads limit ⟨frames, run, surplus⟩ (opener :: (inner ++ [closer]))
      ⟨frames, ((opener :: (inner ++ [closer])).map .loose).reverse ++ run, surplus⟩ notices := by
  have closed (kept : List Node) : Quiet limit ⟨frames, kept, surplus + 1⟩ [closer]
      ⟨frames, .loose closer :: kept, surplus⟩ := by
    obtain ⟨lexeme, span⟩ := closer
    obtain rfl | rfl := closes
    · exact .single rfl rfl
    · exact .single rfl rfl
  have following := (balanced frames (.loose opener :: run) surplus).append (closed _)
  have read := opened.append following
  simpa using read

/-- Inside a construct that is flattened, a whole construct balances. -/
theorem construct {opener closer : Token} {inner : List Token} {frame : List Node → Frame}
    (opens : frameOf? opener = some frame) (balanced : Balanced limit inner)
    (closes : closer.lexeme = .forEnd ∨ closer.lexeme = .ifEnd) :
    Balanced limit (opener :: (inner ++ [closer])) := by
  intro frames run surplus
  have opened : Quiet limit ⟨frames, run, surplus + 1⟩ [opener]
      ⟨frames, .loose opener :: run, surplus + 1 + 1⟩ := by
    obtain ⟨var, path, span, rfl, -⟩ | ⟨path, span, rfl, -⟩ := opening_cases opens
    · exact .single rfl rfl
    · exact .single rfl rfl
  exact balanced.enclosed closes opened

end Balanced

/-- Where there is no room, an opening tag is the first token flattened, with a notice. -/
theorem reads_tooDeep {limit : Int} {opener : Token} {frame : List Node → Frame}
    (opens : frameOf? opener = some frame) {frames : List Frame} (full : limit ≤ frames.length)
    (run : List Node) :
    Reads limit ⟨frames, run, 0⟩ [opener] ⟨frames, .loose opener :: run, 0 + 1⟩
      [.tooDeep limit opener] := by
  obtain ⟨var, path, span, rfl, -⟩ | ⟨path, span, rfl, -⟩ := opening_cases opens
  all_goals
    constructor
    · simp [State.step, State.flattening, State.enter, State.tooDeep, full, State.flatten,
        State.push]
    · simp [State.allNotices, State.notices, State.flattening, State.tooDeep, full]

/-- Where there is no room, a construct around balanced tokens is flattened: its tokens are kept one
by one, with a single notice on its opening tag. -/
theorem reads_flattened {limit : Int} {opener closer : Token} {inner : List Token}
    {frame : List Node → Frame} (opens : frameOf? opener = some frame)
    (balanced : Balanced limit inner) (closes : closer.lexeme = .forEnd ∨ closer.lexeme = .ifEnd)
    {frames : List Frame} (full : limit ≤ frames.length) (run : List Node) :
    Reads limit ⟨frames, run, 0⟩ (opener :: (inner ++ [closer]))
      ⟨frames, ((opener :: (inner ++ [closer])).map .loose).reverse ++ run, 0⟩
      [.tooDeep limit opener] := by
  exact balanced.enclosed closes (reads_tooDeep opens full run)

namespace Block

variable {limit : Int}

/-- The tokens of blocks in a row balance when those of every block do. -/
theorem balanced_rowTokens {row : List Block}
    (each : ∀ block ∈ row, Balanced limit block.tokens) : Balanced limit (rowTokens row) := by
  induction row with
  | nil => exact .nil
  | cons block more ih =>
    have others := ih fun b member => each b (List.mem_cons_of_mem _ member)
    exact (each block (by simp)).append others

/-- The tokens of further branches balance when those of every block in them do. -/
theorem balanced_elifTokens {others : List (Branch (List Block))}
    (each : ∀ branch ∈ others, ∀ block ∈ branch.body, Balanced limit block.tokens) :
    Balanced limit (elifTokens others) := by
  induction others with
  | nil => exact .nil
  | cons branch more ih =>
    obtain ⟨path, span, body⟩ := branch
    have bodies : ∀ block ∈ body, Balanced limit block.tokens := each ⟨path, span, body⟩ (by simp)
    have others := ih fun b member => each b (List.mem_cons_of_mem _ member)
    have tag : Balanced limit [⟨.elifTag path, span⟩] := fun _ _ _ => .single rfl rfl
    exact tag.append ((balanced_rowTokens bodies).append others)

/-- The tokens of an alternative balance when those of every block in it do. -/
theorem balanced_elseTokens {otherwise : Option (Alternative (List Block))}
    (each : ∀ alternative, otherwise = some alternative →
      ∀ block ∈ alternative.body, Balanced limit block.tokens) :
    Balanced limit (elseTokens otherwise) := by
  cases otherwise with
  | none => exact .nil
  | some alternative =>
    have tag : Balanced limit [⟨.elseTag, alternative.span⟩] := fun _ _ _ => .single rfl rfl
    exact tag.append (balanced_rowTokens (each alternative rfl))

/-- The tokens of a block balance. -/
theorem balanced_tokens (block : Block) : Balanced limit block.tokens := by
  induction block using inductionOn with
  | raw | invalid | use => exact fun _ _ _ => .single rfl rfl
  | loop var path opening closing body ih =>
    exact (balanced_rowTokens ih).construct rfl (.inl rfl)
  | choice first others otherwise closing first_ih others_ih otherwise_ih =>
    have branches := (balanced_rowTokens first_ih).append (balanced_elifTokens others_ih)
    exact (branches.append (balanced_elseTokens otherwise_ih)).construct rfl (.inr rfl)

/-- Where `room` more constructs may be opened inside each other, the block is assembled into its
tree cut off there, with a notice on every block that is cut off. -/
def Truncates (limit : Int) (block : Block) : Prop :=
  ∀ (frames : List Frame) (run : List Node) (room : Nat), frames.length + room = limit.toNat →
    Reads limit ⟨frames, run, 0⟩ block.tokens ⟨frames, (block.cut room).reverse ++ run, 0⟩
      ((block.replaced room).map (.tooDeep limit))

/-- Blocks that are cut off in front of any nodes are so in a row. -/
theorem reads_rowTokens {row : List Block} (each : ∀ block ∈ row, block.Truncates limit)
    (frames : List Frame) (run : List Node) {room : Nat}
    (left : frames.length + room = limit.toNat) :
    Reads limit ⟨frames, run, 0⟩ (rowTokens row) ⟨frames, (rowCut row room).reverse ++ run, 0⟩
      ((rowReplaced row room).map (.tooDeep limit)) := by
  induction row generalizing run with
  | nil => exact Quiet.refl _ _
  | cons block more ih =>
    have first := each block (by simp) frames run room left
    have others := ih (fun b member => each b (List.mem_cons_of_mem _ member))
      ((block.cut room).reverse ++ run)
    rw [rowTokens, rowCut, rowReplaced, List.reverse_append, List.append_assoc, List.map_append]
    exact first.append others

/-- A body is cut off with the room that the construct around it leaves. -/
theorem reads_body {body : List Block} (each : ∀ block ∈ body, block.Truncates limit)
    (frame : Frame) (frames : List Frame) {room : Nat}
    (left : frames.length + (room + 1) = limit.toNat) :
    Reads limit ⟨frame :: frames, [], 0⟩ (rowTokens body)
      ⟨frame :: frames, (rowCut body room).reverse, 0⟩
      ((rowReplaced body room).map (.tooDeep limit)) := by
  have inside : (frame :: frames).length + room = limit.toNat := by
    rw [List.length_cons]
    omega
  simpa using reads_rowTokens each (frame :: frames) [] inside

/-- Behind the body of a branch, the alternative is cut off and the conditional is closed. -/
theorem reads_elseTokens {otherwise : Option (Alternative (List Block))}
    (each : ∀ alternative, otherwise = some alternative →
      ∀ block ∈ alternative.body, block.Truncates limit)
    (frames : List Frame) (run outer : List Node) (earlier : List (Branch (List Node)))
    (path : Path) (span closing : Span) {room : Nat}
    (left : frames.length + (room + 1) = limit.toNat) :
    Reads limit ⟨.branch outer earlier path span :: frames, run, 0⟩
      (elseTokens otherwise ++ [⟨.ifEnd, closing⟩])
      ⟨frames, choiceOf (⟨path, span, run⟩ :: earlier)
        (otherwise.map fun alternative => alternative.map fun body => (rowCut body room).reverse)
        closing :: outer, 0⟩
      ((elseReplaced otherwise room).map (.tooDeep limit)) := by
  cases otherwise with
  | none => exact Quiet.single rfl rfl
  | some alternative =>
    obtain ⟨span', body⟩ := alternative
    have entered := Quiet.lastBranch limit frames run outer earlier path span span'
    have bodies := reads_body (each ⟨span', body⟩ rfl)
      (.alternative outer (⟨path, span, run⟩ :: earlier) span') frames left
    have closed : Quiet limit ⟨.alternative outer (⟨path, span, run⟩ :: earlier) span' :: frames,
        (rowCut body room).reverse, 0⟩ [⟨.ifEnd, closing⟩]
        ⟨frames, choiceOf (⟨path, span, run⟩ :: earlier) (some ⟨span', (rowCut body room).reverse⟩)
          closing :: outer, 0⟩ := .single rfl rfl
    have read := entered.reads (bodies.append closed)
    rwa [List.append_nil] at read

/-- Behind the body of a branch, further branches and the alternative are cut off and the
conditional is closed. -/
theorem reads_elifTokens {others : List (Branch (List Block))}
    {otherwise : Option (Alternative (List Block))}
    (each : ∀ branch ∈ others, ∀ block ∈ branch.body, block.Truncates limit)
    (last : ∀ alternative, otherwise = some alternative →
      ∀ block ∈ alternative.body, block.Truncates limit)
    (frames : List Frame) (run outer : List Node) (earlier : List (Branch (List Node)))
    (path : Path) (span closing : Span) {room : Nat}
    (left : frames.length + (room + 1) = limit.toNat) :
    Reads limit ⟨.branch outer earlier path span :: frames, run, 0⟩
      (elifTokens others ++ (elseTokens otherwise ++ [⟨.ifEnd, closing⟩]))
      ⟨frames, choiceOf
        ((others.map fun branch => branch.map fun body => (rowCut body room).reverse).reverse ++
          ⟨path, span, run⟩ :: earlier)
        (otherwise.map fun alternative => alternative.map fun body => (rowCut body room).reverse)
        closing :: outer, 0⟩
      ((elifReplaced others room ++ elseReplaced otherwise room).map (.tooDeep limit)) := by
  induction others generalizing run earlier path span with
  | nil => exact reads_elseTokens last frames run outer earlier path span closing left
  | cons branch more ih =>
    obtain ⟨path', span', body⟩ := branch
    have bodies : ∀ block ∈ body, block.Truncates limit := each ⟨path', span', body⟩ (by simp)
    have entered := Quiet.furtherBranch limit frames run outer earlier path path' span span'
    have inner := reads_body bodies (.branch outer (⟨path, span, run⟩ :: earlier) path' span')
      frames left
    have following := ih (fun b member => each b (List.mem_cons_of_mem _ member))
      (rowCut body room).reverse (⟨path, span, run⟩ :: earlier) path' span'
    have read := entered.reads (inner.append following)
    simpa [elifTokens, elifReplaced, Branch.map] using read

/-- Every block is assembled into its tree, cut off where there is no more room. -/
theorem truncates (block : Block) : block.Truncates limit := by
  induction block using inductionOn with
  | raw | invalid | use => exact fun frames run room _ => Quiet.single rfl rfl
  | loop var path opening closing body ih =>
    intro frames run room left
    cases room with
    | zero =>
      have full : limit ≤ frames.length := by omega
      have inner : Balanced limit (rowTokens body) :=
        balanced_rowTokens fun block _ => block.balanced_tokens
      exact reads_flattened rfl inner (.inl rfl) full run
    | succ room =>
      have opened : Quiet limit ⟨frames, run, 0⟩ [⟨.forStart var path, opening⟩]
          ⟨.loop run var path opening :: frames, [], 0⟩ := by
        apply Quiet.opening rfl
        omega
      have inner := reads_body ih (.loop run var path opening) frames left
      have closed : Quiet limit
          ⟨.loop run var path opening :: frames, (rowCut body room).reverse, 0⟩ [⟨.forEnd, closing⟩]
          ⟨frames, .loop var path opening closing
            (bodyAfter opening (rowCut body room).reverse) :: run, 0⟩ := .single rfl rfl
      have read := opened.reads (inner.append closed)
      rwa [bodyAfter, List.reverse_reverse, List.append_nil] at read
  | choice first others otherwise closing first_ih others_ih otherwise_ih =>
    intro frames run room left
    cases room with
    | zero =>
      have full : limit ≤ frames.length := by omega
      have front : Balanced limit (rowTokens first.body) :=
        balanced_rowTokens fun block _ => block.balanced_tokens
      have further : Balanced limit (elifTokens others) :=
        balanced_elifTokens fun _ _ block _ => block.balanced_tokens
      have last : Balanced limit (elseTokens otherwise) :=
        balanced_elseTokens fun _ _ block _ => block.balanced_tokens
      exact reads_flattened rfl ((front.append further).append last) (.inr rfl) full run
    | succ room =>
      obtain ⟨path, span, body⟩ := first
      have opened : Quiet limit ⟨frames, run, 0⟩ [⟨.ifStart path, span⟩]
          ⟨.branch run [] path span :: frames, [], 0⟩ := by
        apply Quiet.opening rfl
        omega
      have bodies : ∀ block ∈ body, block.Truncates limit := first_ih
      have inner := reads_body bodies (.branch run [] path span) frames left
      have following := reads_elifTokens others_ih otherwise_ih frames (rowCut body room).reverse
        run [] path span closing left
      have read := opened.reads (inner.append following)
      rw [← choiceOf_cut]
      simpa [tokens, replaced, Branch.map] using read

/-- Where there is room, the block is assembled quietly into its tree. -/
def Assembles (limit : Int) (block : Block) : Prop :=
  ∀ (frames : List Frame) (run : List Node), frames.length + block.depth ≤ limit.toNat →
    Quiet limit ⟨frames, run, 0⟩ block.tokens ⟨frames, block.node :: run, 0⟩

/-- Every block is assembled quietly into its tree. -/
theorem assembles (block : Block) : block.Assembles limit := by
  intro frames run room
  have left : frames.length + (limit.toNat - frames.length) = limit.toNat := by omega
  have read := block.truncates frames run _ left
  obtain ⟨whole, silent⟩ := block.staysWhole (limit.toNat - frames.length) (by omega)
  rwa [whole, silent] at read

/-- Where there is room, blocks in a row are assembled quietly into their trees. -/
theorem quiet_rowTokens (row : List Block) (frames : List Frame) (run : List Node)
    (room : frames.length + rowDepth row ≤ limit.toNat) :
    Quiet limit ⟨frames, run, 0⟩ (rowTokens row) ⟨frames, rowRun row ++ run, 0⟩ := by
  have left : frames.length + (limit.toNat - frames.length) = limit.toNat := by omega
  have read := reads_rowTokens (fun block (_ : block ∈ row) => block.truncates) frames run left
  have fits : rowDepth row ≤ limit.toNat - frames.length := by omega
  obtain ⟨whole, silent⟩ := rowCut_of_depth_le fits
  rwa [whole, silent] at read

/-- Where there is room, a body is assembled quietly behind the tag that opened it. -/
theorem quiet_body (body : List Block) (frame : Frame) (frames : List Frame)
    (room : frames.length + (rowDepth body + 1) ≤ limit.toNat) :
    Quiet limit ⟨frame :: frames, [], 0⟩ (rowTokens body) ⟨frame :: frames, rowRun body, 0⟩ := by
  have fits : (frame :: frames).length + rowDepth body ≤ limit.toNat := by
    rw [List.length_cons]
    omega
  simpa using quiet_rowTokens body (frame :: frames) [] fits

end Block

end TextTemplate.Expression
