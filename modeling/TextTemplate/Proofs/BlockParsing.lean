import TextTemplate.Proofs.BlockAssembly
import TextTemplate.Proofs.Flaws
import TextTemplate.Proofs.LogRecords

/-!
# The parser accepts exactly the block grammar

As long as there are no notices, the frames that are open hold the parts of a derivation that is
not complete yet. A token that cannot continue it leaves both a notice and an unexpected token. So
the tokens of a text have a derivation of bounded depth exactly when the tree holds no unexpected
token, and exactly when nothing is logged, and then the tree is the one the derivation stands for.
-/

namespace TextTemplate.Expression

open Text Markup

namespace Block

/-- The tokens of the branches of a conditional, the first of them behind an if tag. -/
def branchTokens : List (Branch (List Block)) → List Token
  | [] => []
  | ⟨path, span, body⟩ :: more => ⟨.ifStart path, span⟩ :: (rowTokens body ++ elifTokens more)

/-- The tag of a branch behind the given ones. -/
def tagBehind (earlier : List (Branch (List Block))) (path : Path) (span : Span) : Token :=
  ⟨if earlier.isEmpty then .ifStart path else .elifTag path, span⟩

/-- A further branch adds its tag and its body. -/
theorem branchTokens_concat (earlier : List (Branch (List Block))) (path : Path) (span : Span)
    (body : List Block) :
    branchTokens (earlier ++ [⟨path, span, body⟩]) =
      branchTokens earlier ++ tagBehind earlier path span :: rowTokens body := by
  cases earlier with
  | nil => simp [branchTokens, tagBehind, elifTokens]
  | cons first others =>
    simp [branchTokens, tagBehind, elifTokens_append, elifTokens]

/-- A conditional derives the tokens of its branches and of its alternative. -/
theorem tokens_choice (first : Branch (List Block)) (others : List (Branch (List Block)))
    (otherwise : Option (Alternative (List Block))) (closing : Span) :
    (choice first others otherwise closing).tokens =
      branchTokens (first :: others) ++ (elseTokens otherwise ++ [⟨.ifEnd, closing⟩]) := by
  simp [tokens, branchTokens]

/-- A conditional is deeper than the bodies of its branches and of its alternative. -/
theorem depth_choice_le {first : Branch (List Block)} {others : List (Branch (List Block))}
    {otherwise : Option (Alternative (List Block))} {bound : Nat}
    (branches : ∀ branch ∈ first :: others, rowDepth branch.body < bound)
    (last : elseDepth otherwise < bound) (closing : Span) :
    (choice first others otherwise closing).depth ≤ bound := by
  have shallow : elifDepth others ≤ bound - 1 := by
    rw [elifDepth_le_iff]
    intro branch member
    have := branches branch (List.mem_cons_of_mem _ member)
    omega
  have front := branches first (by simp)
  rw [depth]
  omega

end Block

/-- A construct that is open on top of the given nodes, with the tokens read for it up to the tag
that was read last. All bodies that are complete are less deep than `bound`. -/
inductive Begun (bound : Nat) (outer : List Node) : Frame → List Token → Prop
  /-- A loop. -/
  | loop (var : Ident) (path : Path) (opening : Span) :
      Begun bound outer (.loop outer var path opening) [⟨.forStart var path, opening⟩]
  /-- A conditional in one of its branches. -/
  | branch (earlier : List (Branch (List Block)))
      (shallow : ∀ branch ∈ earlier, Block.rowDepth branch.body < bound)
      (path : Path) (span : Span) :
      Begun bound outer (.branch outer (earlier.map Block.branchRun).reverse path span)
        (Block.branchTokens earlier ++ [Block.tagBehind earlier path span])
  /-- A conditional in its alternative. -/
  | alternative (first : Branch (List Block)) (others : List (Branch (List Block)))
      (shallow : ∀ branch ∈ first :: others, Block.rowDepth branch.body < bound) (span : Span) :
      Begun bound outer (.alternative outer ((first :: others).map Block.branchRun).reverse span)
        (Block.branchTokens (first :: others) ++ [⟨.elseTag, span⟩])

/-- Constructs that are open inside each other, with the tokens read up to the innermost of their
tags. They nest at most `bound` deep. -/
inductive Stacked (bound : Nat) : List Frame → List Token → Prop
  /-- Nothing is open. -/
  | none : Stacked bound [] []
  /-- A construct is open behind blocks inside the others. -/
  | some {frames : List Frame} {front : List Token} (below : Stacked bound frames front)
      (outer : List Block) {frame : Frame} {read : List Token}
      (begun : Begun (bound - frames.length) (Block.rowRun outer) frame read)
      (fits : frames.length + Block.rowDepth outer ≤ bound) (room : frames.length < bound) :
      Stacked bound (frame :: frames) (front ++ (Block.rowTokens outer ++ read))

/-- A state that part of a derivation leads to, with the tokens read for it. -/
def Partial (bound : Nat) (state : State) (read : List Token) : Prop :=
  ∃ front row, Stacked bound state.frames front ∧ state.run = Block.rowRun row ∧
    state.surplus = 0 ∧ state.frames.length + Block.rowDepth row ≤ bound ∧
    read = front ++ Block.rowTokens row

namespace Partial

variable {bound : Nat} {frames : List Frame} {run : List Node} {read : List Token}

/-- Nothing has been read for the empty derivation. -/
theorem initial (bound : Nat) : Partial bound .initial [] :=
  ⟨[], [], .none, rfl, rfl, Nat.zero_le _, rfl⟩

/-- A complete block may be added to the row that is read. -/
theorem push (held : Partial bound ⟨frames, run, 0⟩ read) (block : Block)
    (fits : frames.length + block.depth ≤ bound) :
    Partial bound ⟨frames, block.node :: run, 0⟩ (read ++ block.tokens) := by
  obtain ⟨front, row, stacked, kept, -, shallow, rfl⟩ := held
  obtain rfl : run = Block.rowRun row := kept
  refine ⟨front, row ++ [block], stacked, ?_, rfl, ?_, ?_⟩
  · exact (Block.rowRun_concat row block).symm
  · have deepest : Block.rowDepth (row ++ [block]) ≤ bound - frames.length := by
      rw [Block.rowDepth_le_iff]
      intro other member
      have within := (Block.rowDepth_le_iff row (bound - frames.length)).mp
        (by simp only at shallow; omega)
      rcases List.mem_append.mp member with inside | new
      · exact within other inside
      · obtain rfl := List.mem_singleton.mp new
        omega
    simp only at shallow ⊢
    omega
  · simp [Block.rowTokens]

/-- Constructs are never open beyond the bound. -/
theorem length_le (held : Partial bound ⟨frames, run, 0⟩ read) : frames.length ≤ bound := by
  obtain ⟨_, row, _, _, _, fits, _⟩ := held
  exact Nat.le_of_add_right_le fits

/-- A construct may be opened behind the row that is read. -/
theorem enter {frame : Frame} {tags : List Token} (held : Partial bound ⟨frames, run, 0⟩ read)
    (begun : Begun (bound - frames.length) run frame tags) (room : frames.length < bound) :
    Partial bound ⟨frame :: frames, [], 0⟩ (read ++ tags) := by
  obtain ⟨front, row, stacked, kept, -, shallow, rfl⟩ := held
  obtain rfl : run = Block.rowRun row := kept
  refine ⟨_, [], .some stacked row begun shallow room, rfl, rfl, ?_, ?_⟩
  · simp only [Block.rowDepth, List.length_cons]
    omega
  · simp [Block.rowTokens]

/-- Where a construct is open, the tokens read are those in front of it, those of its tags and
those of the row that is read in it. -/
theorem innermost {frame : Frame} (held : Partial bound ⟨frame :: frames, run, 0⟩ read) :
    ∃ outer front tags row, Partial bound ⟨frames, outer, 0⟩ front ∧
      Begun (bound - frames.length) outer frame tags ∧ frames.length < bound ∧
      run = Block.rowRun row ∧ Block.rowDepth row < bound - frames.length ∧
      read = front ++ (tags ++ Block.rowTokens row) := by
  obtain ⟨_, row, stacked, kept, -, shallow, rfl⟩ := held
  cases stacked with
  | @some _ front below outer _ tags begun fits room =>
    refine ⟨_, _, tags, row, ⟨front, outer, below, rfl, rfl, fits, rfl⟩, begun, room, kept, ?_, ?_⟩
    · simp only [List.length_cons] at shallow
      omega
    · simp

end Partial

/-- A token that stands for itself is a block. -/
theorem exists_leaf {token : Token} {node : Node} (stands : Node.leaf? token = some node) :
    ∃ block : Block, block.tokens = [token] ∧ block.node = node ∧ block.depth = 0 := by
  obtain ⟨lexeme, span⟩ := token
  cases lexeme with
  | raw text => exact ⟨.raw text span, rfl, Option.some.inj stands, rfl⟩
  | invalid text => exact ⟨.invalid text span, rfl, Option.some.inj stands, rfl⟩
  | use path => exact ⟨.use path span, rfl, Option.some.inj stands, rfl⟩
  | endOfText | forStart _ _ | forEnd | ifStart _ | elifTag _ | elseTag | ifEnd => nomatch stands

/-- An opening tag begins a construct. -/
theorem begun_frameOf {token : Token} {frame : List Node → Frame}
    (opens : frameOf? token = some frame) (bound : Nat) (outer : List Node) :
    Begun bound outer (frame outer) [token] := by
  obtain ⟨var, path, span, rfl, rfl⟩ | ⟨path, span, rfl, rfl⟩ := opening_cases opens
  · exact .loop var path span
  · exact .branch [] (by simp) path span

/-- The branches that are complete stay less deep than the bound when one more is. -/
theorem shallow_concat {bound : Nat} {earlier : List (Branch (List Block))}
    (shallow : ∀ branch ∈ earlier, Block.rowDepth branch.body < bound) {row : List Block}
    (fits : Block.rowDepth row < bound) (path : Path) (span : Span) :
    ∀ branch ∈ earlier ++ [⟨path, span, row⟩], Block.rowDepth branch.body < bound := by
  intro branch member
  rcases List.mem_append.mp member with known | new
  · exact shallow branch known
  · obtain rfl := List.mem_singleton.mp new
    exact fits

/-- A row with something behind it is not empty. -/
theorem exists_first {α : Type} (earlier : List α) (last : α) :
    ∃ first others, earlier ++ [last] = first :: others := by
  cases earlier <;> simp

/-- A token without notice leads from part of a derivation to a larger part of one. -/
theorem Partial.move {limit : Int} {state state' : State} {read : List Token} {token : Token}
    (held : Partial limit.toNat state read) (moved : Move limit state token state' []) :
    Partial limit.toNat state' (read ++ [token]) := by
  cases moved with
  | flattened frames run surplus =>
    obtain ⟨_, _, _, _, nothing, _⟩ := held
    exact nomatch nothing
  | leaf frames run stands =>
    obtain ⟨block, tokens, rfl, flat⟩ := exists_leaf stands
    have fits := held.length_le
    rw [← tokens]
    exact held.push block (by omega)
  | opened frames run opens room =>
    exact held.enter (begun_frameOf opens _ run) (by omega)
  | closedLoop frames run outer var path opening span =>
    obtain ⟨_, front, tags, row, below, begun, room, rfl, fits, rfl⟩ := held.innermost
    cases begun
    have closed := below.push (.loop var path opening span row) (by rw [Block.depth]; omega)
    rw [Block.node, ← Block.bodyAfter_rowRun] at closed
    simpa [Block.tokens] using closed
  | furtherBranch frames run outer earlier path path' span span' =>
    obtain ⟨_, front, tags, row, below, begun, room, rfl, fits, rfl⟩ := held.innermost
    cases begun with
    | branch earlier shallow =>
      have entered := below.enter
        (.branch _ (shallow_concat shallow fits path span) path' span') room
      simpa [Block.branchTokens_concat, Block.tagBehind, Block.branchRun, Branch.map]
        using entered
  | lastBranch frames run outer earlier path span span' =>
    obtain ⟨_, front, tags, row, below, begun, room, rfl, fits, rfl⟩ := held.innermost
    cases begun with
    | branch earlier shallow =>
      have bodies := shallow_concat shallow fits path span
      obtain ⟨first, others, same⟩ := exists_first earlier ⟨path, span, row⟩
      rw [same] at bodies
      have entered := below.enter (.alternative first others bodies span') room
      rw [← same] at entered
      simpa [Block.branchTokens_concat, Block.branchRun, Branch.map] using entered
  | closedBranch frames run outer earlier path span span' =>
    obtain ⟨_, front, tags, row, below, begun, room, rfl, fits, rfl⟩ := held.innermost
    cases begun with
    | branch earlier shallow =>
      have bodies := shallow_concat shallow fits path span
      obtain ⟨first, others, same⟩ := exists_first earlier ⟨path, span, row⟩
      rw [same] at bodies
      have nothing : Block.elseDepth none < limit.toNat - frames.length := by
        rw [Block.elseDepth]
        omega
      have deepest := Block.depth_choice_le bodies nothing span'
      have closed := below.push (.choice first others none span') (by omega)
      rw [Block.tokens_choice, ← Block.choiceOf_branchRun, ← same] at closed
      simpa [Block.branchTokens_concat, Block.branchRun, Branch.map, Block.elseTokens]
        using closed
  | closedAlternative frames run outer branches span span' =>
    obtain ⟨_, front, tags, row, below, begun, room, rfl, fits, rfl⟩ := held.innermost
    cases begun with
    | alternative first others shallow =>
      have last : Block.elseDepth (some ⟨span, row⟩) < limit.toNat - frames.length := fits
      have deepest := Block.depth_choice_le shallow last span'
      have closed := below.push (.choice first others (some ⟨span, row⟩) span') (by omega)
      rw [Block.tokens_choice, ← Block.choiceOf_branchRun] at closed
      simpa [Alternative.map, Block.elseTokens] using closed

/-- Reading tokens either continues a derivation without a notice, or leaves a notice and an
unexpected token. -/
theorem Partial.run {limit : Int} {state : State} {read : List Token}
    (held : Partial limit.toNat state read) {more : List Token}
    (inside : ∀ token ∈ more, token.lexeme ≠ .endOfText) :
    (Partial limit.toNat (more.foldl (State.step limit) state) (read ++ more) ∧
        State.allNotices limit state more = []) ∨
      ((more.foldl (State.step limit) state).Flawed ∧
        State.allNotices limit state more ≠ []) := by
  induction more generalizing state read with
  | nil => exact .inl ⟨by simpa using held, rfl⟩
  | cons token more ih =>
    have moved := State.move limit state token (inside token (by simp))
    have others : ∀ t ∈ more, t.lexeme ≠ .endOfText :=
      fun t member => inside t (List.mem_cons_of_mem _ member)
    rw [List.foldl_cons, State.allNotices]
    by_cases silent : state.notices limit token = []
    · rw [silent] at moved
      have following := ih (held.move moved) others
      rw [List.append_assoc, List.singleton_append] at following
      rwa [silent, List.nil_append]
    · have flawed := State.flawed_of_notice moved silent
      exact .inr ⟨State.Carries.foldl flawed Node.spreads_flawed others, by simp [silent]⟩

/-- The tokens of a derivation that is not too deep are assembled into the tree it stands for,
without a notice. -/
theorem parse_of_blocks {limit : Int} {text : String} {row : List Block}
    (derives : Block.rowTokens row = contentTokens text)
    (shallow : Block.rowDepth row ≤ limit.toNat) :
    parseNotices limit text = [] ∧
      ∃ stop, tokenize text = contentTokens text ++ [⟨.endOfText, .empty stop⟩] ∧
        parse limit text = .ofRun (.empty stop) (Block.rowNodes row) := by
  obtain ⟨stop, split, tree, notices⟩ := parse_eq_finish limit text
  obtain ⟨reached, silent⟩ := Block.quiet_rowTokens row [] [] (by simpa using shallow)
  have state : assembled limit text = ⟨[], Block.rowRun row, 0⟩ := by
    rw [assembled, ← derives]
    simpa [State.initial] using reached
  constructor
  · rw [notices, state, ← derives]
    simpa [State.initial] using silent
  · refine ⟨stop, split, ?_⟩
    rw [tree, state]
    simp [State.finish, Block.rowRun]

/-- A text either has a derivation that is not too deep, or its tree holds an unexpected token and
there are notices on it. -/
theorem blocks_or_flawed (limit : Int) (text : String) :
    (∃ row, Block.rowTokens row = contentTokens text ∧ Block.rowDepth row ≤ limit.toNat) ∨
      ((parse limit text).Flawed ∧ parseNotices limit text ≠ []) := by
  obtain ⟨stop, split, tree, notices⟩ := parse_eq_finish limit text
  have inside : ∀ token ∈ contentTokens text, token.lexeme ≠ .endOfText :=
    fun token member => (proper_of_mem_contentTokens member).not_end
  have whole : ∀ {nodes : List Node}, Node.AnyFlawed nodes →
      (Node.ofRun (.empty stop) nodes.reverse).Flawed := fun flawed =>
    Node.spreads_flawed.ofRun _ ((Node.among_reverse _ _).mpr flawed)
  rcases (Partial.initial limit.toNat).run inside with ⟨held, silent⟩ | ⟨flawed, noticed⟩
  · by_cases opened : (assembled limit text).frames = []
    · obtain ⟨front, row, stacked, -, -, shallow, read⟩ := held
      rw [show (contentTokens text).foldl (State.step limit) .initial = assembled limit text
        from rfl, opened] at stacked shallow
      cases stacked
      exact .inl ⟨row, by simpa using read.symm, by simpa using shallow⟩
    · refine .inr ⟨?_, ?_⟩
      · rw [tree]
        exact whole (State.flawed_finish_of_open opened _)
      · simp [notices, opened]
  · refine .inr ⟨?_, ?_⟩
    · rw [tree]
      exact whole (State.Carries.finish flawed _)
    · simp [notices, noticed]

/-- The parser accepts exactly the block grammar. The tokens of a text in front of its end have a
derivation with blocks nested at most `limit` deep, exactly when no unexpected token stands in the
tree, and exactly when nothing is logged on the tree. Then the tree is the one the derivation
stands for. -/
theorem parse_accepts_blocks (limit : Int) (text : String) :
    ((∃ row, Block.rowTokens row = contentTokens text ∧ Block.rowDepth row ≤ limit.toNat) ↔
      ¬(parse limit text).Flawed) ∧
    (¬(parse limit text).Flawed ↔
      ∀ record ∈ Log.parseRecords limit text, record.channel ≠ .tree) ∧
    ∀ row, Block.rowTokens row = contentTokens text → Block.rowDepth row ≤ limit.toNat →
      ∃ stop, tokenize text = contentTokens text ++ [⟨.endOfText, .empty stop⟩] ∧
        parse limit text = .ofRun (.empty stop) (Block.rowNodes row) := by
  have sound : ∀ row, Block.rowTokens row = contentTokens text →
      Block.rowDepth row ≤ limit.toNat → ¬(parse limit text).Flawed := by
    intro row derives shallow
    obtain ⟨-, stop, -, tree⟩ := parse_of_blocks derives shallow
    rw [tree]
    exact Block.not_flawed_joined (fun block _ => block.not_flawed_node) _
  rw [parseRecords_silent_iff]
  refine ⟨⟨?_, fun sane => ?_⟩, ⟨fun sane => ?_, fun silent => ?_⟩, ?_⟩
  · rintro ⟨row, derives, shallow⟩
    exact sound row derives shallow
  · exact (blocks_or_flawed limit text).resolve_right fun other => sane other.1
  · obtain ⟨row, derives, shallow⟩ :=
      (blocks_or_flawed limit text).resolve_right fun other => sane other.1
    exact (parse_of_blocks derives shallow).1
  · obtain ⟨row, derives, shallow⟩ :=
      (blocks_or_flawed limit text).resolve_right fun other => other.2 silent
    exact sound row derives shallow
  · intro row derives shallow
    exact (parse_of_blocks derives shallow).2

end TextTemplate.Expression
