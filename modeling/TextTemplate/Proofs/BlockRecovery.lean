import TextTemplate.Proofs.BlockAssembly
import TextTemplate.Proofs.LogRecords
import TextTemplate.Proofs.Persistence

/-!
# Well-formed blocks survive whatever stands around them

The parser recovers from tags that find no place by taking constructs apart. A block that is
well-formed on its own is never touched by that: wherever its tokens stand next to each other, the
construct they form is read whole. All that could prevent this is a construct nested too deep, and
of that the log holds a warning.
-/

namespace TextTemplate.Expression

open Text Markup

/-- Whether there is no warning among notices. -/
def Calm (notices : List Notice) : Prop :=
  ∀ notice ∈ notices, Log.noticeLevel notice ≠ .warning

/-- Two rows of notices are calm together when each is. -/
theorem calm_append (front back : List Notice) : Calm (front ++ back) ↔ Calm front ∧ Calm back :=
  List.forall_mem_append

/-- That a construct is nested too deep is a warning. -/
theorem not_calm_tooDeep (limit : Int) (opener : Token) : ¬Calm [.tooDeep limit opener] := by
  intro calm
  exact calm _ (List.mem_singleton_self _) rfl

namespace State

/-- Whether no construct is being flattened and those that are open nest at most `bound` deep. -/
structure Bounded (bound : Nat) (state : State) : Prop where
  /-- Nothing is being flattened. -/
  balanced : state.surplus = 0
  /-- The constructs that are open are within the bound. -/
  fits : state.frames.length ≤ bound

/-- A token without warning keeps the constructs that are open within the limit. -/
theorem bounded_move {limit : Int} {state state' : State} {token : Token}
    {notices : List Notice} (moved : Move limit state token state' notices) (calm : Calm notices)
    (bounded : state.Bounded limit.toNat) : state'.Bounded limit.toNat := by
  have fits := bounded.fits
  cases moved with
  | flattened frames run surplus => exact absurd bounded.balanced (Nat.succ_ne_zero surplus)
  | tooDeep frames run opens deep => exact absurd calm (not_calm_tooDeep limit token)
  | leaf | stray | furtherBranch | lastBranch => exact ⟨rfl, fits⟩
  | opened frames run opens room =>
    refine ⟨rfl, ?_⟩
    simp only [List.length_cons]
    omega
  | closedLoop | closedBranch | closedAlternative | abandoned =>
    exact ⟨rfl, Nat.le_of_succ_le fits⟩

/-- Tokens without warning keep the constructs that are open within the limit. -/
theorem bounded_foldl {limit : Int} {state : State} {read : List Token}
    (inside : ∀ token ∈ read, token.lexeme ≠ .endOfText)
    (calm : Calm (allNotices limit state read)) (bounded : state.Bounded limit.toNat) :
    (read.foldl (step limit) state).Bounded limit.toNat := by
  induction read generalizing state with
  | nil => exact bounded
  | cons token more ih =>
    rw [allNotices, calm_append] at calm
    have moved := move limit state token (inside token (by simp))
    have others : ∀ t ∈ more, t.lexeme ≠ .endOfText :=
      fun t member => inside t (List.mem_cons_of_mem _ member)
    exact ih others calm.2 (bounded_move moved calm.1 bounded)

end State

/-- Behind tokens that are read quietly, the others are as calm as the whole. -/
theorem Quiet.calm_rest {limit : Int} {state middle : State} {front back : List Token}
    (quiet : Quiet limit state front middle)
    (calm : Calm (State.allNotices limit state (front ++ back))) :
    Calm (State.allNotices limit middle back) := by
  obtain ⟨reached, -⟩ := quiet
  rw [State.allNotices_append, reached, calm_append] at calm
  exact calm.2

/-- Where there is no warning, there was room for a construct that was opened, and what is read in
it stays calm. -/
theorem enter_of_calm {limit : Int} {frames : List Frame} {run : List Node} {token : Token}
    {frame : List Node → Frame} (opens : frameOf? token = some frame) {more : List Token}
    (calm : Calm (State.allNotices limit ⟨frames, run, 0⟩ (token :: more))) :
    frames.length < limit.toNat ∧
      Calm (State.allNotices limit ⟨frame run :: frames, [], 0⟩ more) := by
  have room : frames.length < limit.toNat := by
    rw [← Nat.not_le]
    intro full
    have deep : limit ≤ frames.length := by omega
    have noticed : State.notices limit ⟨frames, run, 0⟩ token = [.tooDeep limit token] := by
      obtain ⟨var, path, span, rfl, rfl⟩ | ⟨path, span, rfl, rfl⟩ := opening_cases opens
      · simp [State.notices, State.flattening, State.tooDeep, deep]
      · simp [State.notices, State.flattening, State.tooDeep, deep]
    rw [State.allNotices, calm_append, noticed] at calm
    exact not_calm_tooDeep limit token calm.1
  exact ⟨room, (Quiet.opening opens frames run room).calm_rest calm⟩

namespace Block

/-- Where the tokens of the block are read without a warning, there is room for its depth. -/
def Fits (limit : Int) (block : Block) : Prop :=
  ∀ (frames : List Frame) (run : List Node), frames.length ≤ limit.toNat →
    Calm (State.allNotices limit ⟨frames, run, 0⟩ block.tokens) →
      frames.length + block.depth ≤ limit.toNat

variable {limit : Int}

/-- Blocks that fit do so in a row, whatever is read behind them. -/
theorem fits_rowTokens {row : List Block} (each : ∀ block ∈ row, block.Fits limit)
    (frames : List Frame) (run : List Node) (bounded : frames.length ≤ limit.toNat)
    {more : List Token}
    (calm : Calm (State.allNotices limit ⟨frames, run, 0⟩ (rowTokens row ++ more))) :
    frames.length + rowDepth row ≤ limit.toNat := by
  induction row generalizing run with
  | nil => exact bounded
  | cons block others ih =>
    rw [rowTokens, List.append_assoc] at calm
    have own : Calm (State.allNotices limit ⟨frames, run, 0⟩ block.tokens) := by
      rw [State.allNotices_append, calm_append] at calm
      exact calm.1
    have first := each block (by simp) frames run bounded own
    -- There was room for the first block, so the others start with the same constructs open.
    have quiet := block.assembles frames run first
    have rest := ih (fun b member => each b (List.mem_cons_of_mem _ member)) (block.node :: run)
      (quiet.calm_rest calm)
    rw [rowDepth]
    omega

/-- A body that fits leaves room for the construct around it; what is read behind it stays calm. -/
theorem fits_body {body : List Block} (each : ∀ block ∈ body, block.Fits limit) (frame : Frame)
    (frames : List Frame) (room : frames.length < limit.toNat) {more : List Token}
    (calm : Calm (State.allNotices limit ⟨frame :: frames, [], 0⟩ (rowTokens body ++ more))) :
    frames.length + (rowDepth body + 1) ≤ limit.toNat ∧
      Calm (State.allNotices limit ⟨frame :: frames, rowRun body, 0⟩ more) := by
  have fits := fits_rowTokens each (frame :: frames) [] room calm
  rw [List.length_cons] at fits
  have fits' : frames.length + (rowDepth body + 1) ≤ limit.toNat := by omega
  have quiet := quiet_body body frame frames fits'
  exact ⟨fits', quiet.calm_rest calm⟩

/-- Where a branch is being read, further branches and an alternative leave room for the
conditional. -/
theorem fits_elifTokens {others : List (Branch (List Block))}
    {otherwise : Option (Alternative (List Block))}
    (each : ∀ branch ∈ others, ∀ block ∈ branch.body, block.Fits limit)
    (last : ∀ alternative, otherwise = some alternative →
      ∀ block ∈ alternative.body, block.Fits limit)
    (frames : List Frame) (room : frames.length < limit.toNat) (run outer : List Node)
    (earlier : List (Branch (List Node))) (path : Path) (span : Span) {more : List Token}
    (calm : Calm (State.allNotices limit ⟨.branch outer earlier path span :: frames, run, 0⟩
      (elifTokens others ++ (elseTokens otherwise ++ more)))) :
    frames.length + (max (elifDepth others) (elseDepth otherwise) + 1) ≤ limit.toNat := by
  induction others generalizing run earlier path span with
  | nil =>
    cases otherwise with
    | none =>
      rw [elifDepth, elseDepth]
      omega
    | some alternative =>
      obtain ⟨span', body⟩ := alternative
      have entered := Quiet.lastBranch limit frames run outer earlier path span span'
      have bodies := last ⟨span', body⟩ rfl
      have fits := (fits_body bodies _ frames room (entered.calm_rest calm)).1
      simpa [elifDepth, elseDepth] using fits
  | cons branch others ih =>
    obtain ⟨path', span', body⟩ := branch
    rw [elifTokens, List.cons_append, List.append_assoc] at calm
    have entered := Quiet.furtherBranch limit frames run outer earlier path path' span span'
    have bodies : ∀ block ∈ body, block.Fits limit := each ⟨path', span', body⟩ (by simp)
    obtain ⟨fits, following⟩ := fits_body bodies _ frames room (entered.calm_rest calm)
    have rest := ih (fun b member => each b (List.mem_cons_of_mem _ member)) _ _ _ _ following
    rw [elifDepth]
    omega

/-- Every block fits where its tokens are read without a warning. -/
theorem fits (block : Block) : block.Fits limit := by
  induction block using inductionOn with
  | raw | invalid | use => exact fun frames run bounded _ => bounded
  | loop var path opening closing body ih =>
    intro frames run _ calm
    rw [tokens] at calm
    obtain ⟨room, inner⟩ := enter_of_calm rfl calm
    exact (fits_body ih _ frames room inner).1
  | choice first others otherwise closing first_ih others_ih otherwise_ih =>
    intro frames run _ calm
    obtain ⟨path, span, body⟩ := first
    rw [tokens, List.append_assoc, List.append_assoc] at calm
    have bodies : ∀ block ∈ body, block.Fits limit := first_ih
    obtain ⟨room, inner⟩ := enter_of_calm rfl calm
    obtain ⟨fits, following⟩ := fits_body bodies _ frames room inner
    have rest := fits_elifTokens others_ih otherwise_ih frames room _ _ _ _ _ following
    rw [depth]
    omega

/-- The parse of the tokens that blocks derive, on their own, as a body behind an opening tag. -/
def parsedBody (limit : Int) (opening : Span) (row : List Block) : Node :=
  .ofTokens limit (rowTokens row ++ [⟨.endOfText, .empty opening.stop⟩])

/-- The construct that the tags of a block form around the parses of what is between them. -/
def parsed (limit : Int) : Block → Node
  | .raw text span => .raw text span
  | .invalid text span => .invalid text span
  | .use path span => .use path span
  | .loop var path opening closing body =>
    .loop var path opening closing (parsedBody limit opening body)
  | .choice first others otherwise closing =>
    .choice ((first :: others).map fun branch => branch.map (parsedBody limit branch.span))
      (otherwise.map fun alternative => alternative.map (parsedBody limit alternative.span)) closing

/-- Where there is room, a body parsed on its own consists of the trees of its blocks. -/
theorem parsedBody_eq {row : List Block} (opening : Span) (room : rowDepth row ≤ limit.toNat) :
    parsedBody limit opening row = .ofRun (.empty opening.stop) (rowNodes row) := by
  obtain ⟨reached, -⟩ := quiet_rowTokens row [] [] (by simpa using room)
  rw [parsedBody, Node.ofTokens, List.getLast?_concat, List.foldl_append, State.initial, reached]
  simp [State.step, State.finish, rowRun]

/-- Where there is room, what a block stands for is made of the parses of what is in it. -/
theorem node_eq_parsed {block : Block} (room : block.depth ≤ limit.toNat) :
    block.node = block.parsed limit := by
  cases block with
  | raw | invalid | use => rfl
  | loop var path opening closing body =>
    rw [depth] at room
    rw [node, parsed, parsedBody_eq opening (by omega)]
  | choice first others otherwise closing =>
    obtain ⟨path, span, body⟩ := first
    rw [depth] at room
    have shallow := (elifDepth_le_iff others limit.toNat).mp (by omega)
    have front : parsedBody limit span body = .ofRun (.empty span.stop) (rowNodes body) :=
      parsedBody_eq span (by omega)
    have branches : elifNodes others =
        others.map fun branch => branch.map (parsedBody limit branch.span) := by
      rw [elifNodes_eq_map]
      apply List.map_congr_left
      intro branch member
      rw [Branch.map, Branch.map, parsedBody_eq branch.span (shallow branch member)]
    have last : elseNode otherwise =
        otherwise.map fun alternative => alternative.map (parsedBody limit alternative.span) := by
      cases otherwise with
      | none => rfl
      | some alternative =>
        obtain ⟨span', body'⟩ := alternative
        rw [elseDepth] at room
        have back : parsedBody limit span' body' = .ofRun (.empty span'.stop) (rowNodes body') :=
          parsedBody_eq span' (by omega)
        simp [elseNode, Alternative.map, back]
    rw [node, parsed, branches, last, List.map_cons, Branch.map, front]

/-- A block that is read without a warning is there afterwards, whichever constructs are open. -/
theorem carries_parsed (block : Block) {state : State} (bounded : state.Bounded limit.toNat)
    (calm : Calm (State.allNotices limit state block.tokens)) :
    (block.tokens.foldl (State.step limit) state).Carries (block.parsed limit ∈ ·.subnodes) := by
  obtain ⟨frames, run, surplus⟩ := state
  obtain rfl : surplus = 0 := bounded.balanced
  have room : frames.length + block.depth ≤ limit.toNat :=
    block.fits frames run bounded.fits calm
  have same : block.node = block.parsed limit := node_eq_parsed (by omega)
  have reached := (block.assembles frames run room).1
  rw [reached, ← same]
  exact ⟨block.node, by simp [State.nodes], block.node.mem_subnodes_self⟩

/-- The tokens of a block end with one of the block's own, which is not the end of the text. -/
theorem exists_last_token (block : Block) :
    ∃ front last, block.tokens = front ++ [last] ∧ last.lexeme ≠ .endOfText := by
  cases block with
  | raw text span => exact ⟨[], ⟨.raw text, span⟩, rfl, by simp⟩
  | invalid text span => exact ⟨[], ⟨.invalid text, span⟩, rfl, by simp⟩
  | use path span => exact ⟨[], ⟨.use path, span⟩, rfl, by simp⟩
  | loop var path opening closing body =>
    exact ⟨_ :: rowTokens body, ⟨.forEnd, closing⟩, by rw [tokens, List.cons_append], by simp⟩
  | choice first others otherwise closing =>
    exact ⟨_ :: (rowTokens first.body ++ elifTokens others ++ elseTokens otherwise),
      ⟨.ifEnd, closing⟩, by rw [tokens, List.cons_append], by simp⟩

/-- The tokens of a block that stand next to each other in a text stand in front of its end. -/
theorem contentTokens_around {text : String} {block : Block} {front back : List Token}
    (standing : front ++ block.tokens ++ back = tokenize text) :
    contentTokens text = front ++ block.tokens ++ back.dropLast := by
  -- The last token of the text is its end, which no block derives.
  have more : back ≠ [] := by
    intro nothing
    obtain ⟨stop, split⟩ := (contentTokens_spec text).1
    obtain ⟨own, last, tokens, inside⟩ := block.exists_last_token
    rw [nothing, List.append_nil, tokens, ← List.append_assoc, split] at standing
    have same := List.singleton_inj.mp (List.append_inj_right' standing rfl)
    exact inside (by rw [same])
  rw [contentTokens, ← standing, List.dropLast_append_of_ne_nil more]

end Block

/-- Recovery never damages a well-formed construct. Where no warning is logged on a text, every
block whose tokens stand next to each other in the text is in the tree, with its bodies parsed as
if they stood alone, whatever stands in front of it, around it and behind it. -/
theorem parse_preserves_blocks {limit : Int} {text : String}
    (unwarned : ∀ record ∈ Log.parseRecords limit text, record.level ≠ .warning) (block : Block)
    (standing : block.tokens <:+: tokenize text) :
    block.parsed limit ∈ (parse limit text).subnodes := by
  obtain ⟨front, back, whole⟩ := standing
  have split := Block.contentTokens_around whole
  have calm : Calm (parseNotices limit text) := (parseRecords_unwarned_iff limit text).mp unwarned
  rw [parseNotices, ← whole, State.allNotices_append, State.allNotices_append, calm_append,
    calm_append] at calm
  obtain ⟨⟨before, own⟩, -⟩ := calm
  have inside : ∀ token ∈ front, token.lexeme ≠ .endOfText := by
    intro token member
    have proper : token ∈ contentTokens text := by
      rw [split, List.append_assoc]
      exact List.mem_append_left _ member
    exact (proper_of_mem_contentTokens proper).not_end
  -- Whatever has been taken apart in front of the block, nothing is being flattened there.
  have bounded : (front.foldl (State.step limit) .initial).Bounded limit.toNat :=
    State.bounded_foldl inside before ⟨rfl, Nat.zero_le _⟩
  have found := block.carries_parsed bounded own
  rw [← List.foldl_append] at found
  exact parse_of_carries (Node.spreads_mem_subnodes _) split found

/-- A loop that an endif tag ends is taken apart, which leaves a notice; the conditional inside the
loop is in the tree all the same. -/
theorem parse_preserves_blocks_in_open_loop :
    let text := statement "for x in xs" ++ statement "if x" ++ interpolation "x" ++
      statement "else" ++ statement "endif" ++ statement "endif"
    let path : Path := ⟨"x", [], ⟨"x", ⟨23, 1, 24⟩, ⟨24, 1, 25⟩⟩⟩
    let value : Block :=
      .use ⟨"x", [], ⟨"x", ⟨30, 1, 31⟩, ⟨31, 1, 32⟩⟩⟩ ⟨interpolation "x", ⟨27, 1, 28⟩, ⟨34, 1, 35⟩⟩
    let block : Block :=
      .choice ⟨path, ⟨statement "if x", ⟨17, 1, 18⟩, ⟨27, 1, 28⟩⟩, [value]⟩ []
        (some ⟨⟨statement "else", ⟨34, 1, 35⟩, ⟨44, 1, 45⟩⟩, []⟩)
        ⟨statement "endif", ⟨44, 1, 45⟩, ⟨55, 1, 56⟩⟩
    (∀ record ∈ Log.parseRecords 2 text, record.level ≠ .warning) ∧
      block.tokens <:+: tokenize text ∧ parseNotices 2 text ≠ [] ∧
      block.parsed 2 ∈ (parse 2 text).subnodes := by
  intro text path value block
  have unwarned : ∀ record ∈ Log.parseRecords 2 text, record.level ≠ .warning := by decide +kernel
  have standing : block.tokens <:+: tokenize text := by decide +kernel
  have noticed : parseNotices 2 text ≠ [] := by decide +kernel
  exact ⟨unwarned, standing, noticed, parse_preserves_blocks unwarned block standing⟩

end TextTemplate.Expression
