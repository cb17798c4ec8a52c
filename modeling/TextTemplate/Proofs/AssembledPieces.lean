import TextTemplate.Proofs.HeldNodes

/-!
# The pieces a tree is assembled from

While a template is assembled, all nodes stand in rows: in front of a construct, in its body, or
outside of all constructs. What can stand in such a row is described once, together with how deep
constructs are nested in it. Every token keeps all rows of a state as described, and the end of the
text adds nothing but itself, behind everything else.
-/

namespace TextTemplate.Expression

open Text Markup

/-- What may stand in a row of nodes, with constructs nested at most `room` deep in it. It is no
sequence and no empty text, and as an unexpected token it is a tag inside the text. -/
inductive Piece : Nat → Node → Prop
  /-- Literal text that is not empty. -/
  | raw (room : Nat) {text : String} (covers : text ≠ "") (span : Span) :
      Piece room (.raw text span)
  /-- A tag that could not be read. -/
  | invalid (room : Nat) (text : String) (span : Span) : Piece room (.invalid text span)
  /-- The place of a value. -/
  | use (room : Nat) (path : Path) (span : Span) : Piece room (.use path span)
  /-- A tag without a place. -/
  | unexpected (room : Nat) {token : Token} (tag : Node.leaf? token = none)
      (inside : token.lexeme ≠ .endOfText) : Piece room (.unexpected token)
  /-- A loop around a row, the newest node first. -/
  | loop {room : Nat} (var : Ident) (path : Path) (opening closing : Span) {run : List Node}
      (body : ∀ node ∈ run, Piece room node) :
      Piece (room + 1) (.loop var path opening closing (bodyAfter opening run))
  /-- A conditional around a row in each of its branches and in its alternative. -/
  | choice {room : Nat} {branches : List (Branch (List Node))} (nonempty : branches ≠ [])
      (bodies : ∀ branch ∈ branches, ∀ node ∈ branch.body, Piece room node)
      {otherwise : Option (Alternative (List Node))}
      (last : ∀ alternative, otherwise = some alternative →
        ∀ node ∈ alternative.body, Piece room node) (closing : Span) :
      Piece (room + 1) (choiceOf branches otherwise closing)

/-- Where there is more room a piece fits as well. -/
theorem Piece.succ {room : Nat} {node : Node} (piece : Piece room node) :
    Piece (room + 1) node := by
  induction piece with
  | raw room covers span => exact .raw _ covers span
  | invalid room text span => exact .invalid _ text span
  | use room path span => exact .use _ path span
  | unexpected room tag inside => exact .unexpected _ tag inside
  | loop var path opening closing body ih => exact .loop var path opening closing ih
  | choice nonempty bodies last closing bodies_ih last_ih =>
    exact .choice nonempty bodies_ih last_ih closing

/-- A token read inside a text is a piece on its own. -/
theorem piece_loose (room : Nat) {token : Token} (inside : token.lexeme ≠ .endOfText)
    (covers : token.lexeme ≠ .raw "") : Piece room (.loose token) := by
  obtain ⟨lexeme, span⟩ := token
  cases lexeme with
  | raw text =>
    have nonempty : text ≠ "" := fun nothing => covers (congrArg Lexeme.raw nothing)
    exact .raw room nonempty span
  | invalid text => exact .invalid room text span
  | use path => exact .use room path span
  | endOfText => exact absurd rfl inside
  | forStart _ _ | forEnd | ifStart _ | elifTag _ | elseTag | ifEnd =>
    exact .unexpected room rfl inside

/-- A closer stands for no node of its own. -/
theorem leaf?_of_closer {token : Token} (closes : token.lexeme.isCloser = true) :
    Node.leaf? token = none := by
  obtain ⟨lexeme, span⟩ := token
  cases lexeme with
  | endOfText | forEnd | elifTag _ | elseTag | ifEnd => rfl
  | raw _ | invalid _ | use _ | forStart _ _ | ifStart _ => nomatch closes

/-- The tag of a branch that has no place is a piece. -/
theorem piece_tagAfter (room : Nat) (earlier : List (Branch (List Node))) (path : Path)
    (span : Span) : Piece room (.unexpected (tagAfter earlier path span)) := by
  cases earlier with
  | nil => exact .unexpected room rfl nofun
  | cons => exact .unexpected room rfl nofun

/-- A construct that is open holds pieces only: those in front of it, and in its branches those
with `room` for constructs. Where an alternative is being read, there is a branch before it. -/
def Frame.Pieced (room : Nat) : Frame → Prop
  | .loop outer _ _ _ => ∀ node ∈ outer, Piece (room + 1) node
  | .branch outer earlier _ _ =>
    (∀ node ∈ outer, Piece (room + 1) node) ∧
      ∀ branch ∈ earlier, ∀ node ∈ branch.body, Piece room node
  | .alternative outer branches _ =>
    (∀ node ∈ outer, Piece (room + 1) node) ∧
      (∀ branch ∈ branches, ∀ node ∈ branch.body, Piece room node) ∧ branches ≠ []

/-- Constructs that are open inside each other hold pieces only. Out of `bound` levels, `room` are
left inside the innermost one. -/
inductive Layered (bound : Nat) : Nat → List Frame → Prop
  /-- Nothing is open. -/
  | bottom : Layered bound bound []
  /-- A construct takes one level. -/
  | inside {room : Nat} {frame : Frame} {frames : List Frame}
      (below : Layered bound (room + 1) frames) (pieced : frame.Pieced room) :
      Layered bound room (frame :: frames)

/-- The levels taken and those that are left make up the bound. -/
theorem Layered.length_add {bound room : Nat} {frames : List Frame}
    (layered : Layered bound room frames) : frames.length + room = bound := by
  induction layered with
  | bottom => exact Nat.zero_add bound
  | inside below pieced ih =>
    rw [List.length_cons]
    omega

/-- In the course of the assembly all rows hold pieces only, within the bound. -/
def State.Pieced (bound : Nat) (state : State) : Prop :=
  ∃ room, Layered bound room state.frames ∧ ∀ node ∈ state.run, Piece room node

/-- Branches taken apart give pieces. -/
theorem pieces_scattered {room : Nat} {outer : List Node}
    (before : ∀ node ∈ outer, Piece (room + 1) node) {branches : List (Branch (List Node))}
    (bodies : ∀ branch ∈ branches, ∀ node ∈ branch.body, Piece room node) :
    ∀ node ∈ scattered outer branches, Piece (room + 1) node := by
  induction branches with
  | nil => exact before
  | cons branch earlier ih =>
    obtain ⟨path, span, body⟩ := branch
    have own : ∀ node ∈ body, Piece room node := bodies ⟨path, span, body⟩ (by simp)
    have others := ih fun other member => bodies other (List.mem_cons_of_mem _ member)
    rw [scattered, List.forall_mem_append, List.forall_mem_cons]
    exact ⟨fun node member => (own node member).succ, piece_tagAfter _ earlier path span, others⟩

/-- A construct taken apart leaves its row, and pieces below it: its own tag at least. -/
theorem Frame.Pieced.abandon {room : Nat} {frame : Frame} (pieced : frame.Pieced room)
    (closer : Token) : ∃ below, below ≠ [] ∧ (∀ node ∈ below, Piece (room + 1) node) ∧
      ∀ run, frame.abandon closer run = .unexpected closer :: (run ++ below) := by
  cases frame with
  | loop outer var path opening =>
    have tag : Piece (room + 1) (.unexpected ⟨.forStart var path, opening⟩) :=
      .unexpected _ rfl nofun
    exact ⟨_, List.cons_ne_nil _ _, List.forall_mem_cons.mpr ⟨tag, pieced⟩, fun _ => rfl⟩
  | branch outer earlier path span =>
    obtain ⟨before, bodies⟩ := pieced
    have rest := pieces_scattered before bodies
    have tag := piece_tagAfter (room + 1) earlier path span
    exact ⟨_, List.cons_ne_nil _ _, List.forall_mem_cons.mpr ⟨tag, rest⟩, fun _ => rfl⟩
  | alternative outer branches span =>
    obtain ⟨before, bodies, -⟩ := pieced
    have rest := pieces_scattered before bodies
    have tag : Piece (room + 1) (.unexpected ⟨.elseTag, span⟩) := .unexpected _ rfl nofun
    exact ⟨_, List.cons_ne_nil _ _, List.forall_mem_cons.mpr ⟨tag, rest⟩, fun _ => rfl⟩

/-- The frame of an opening tag holds the pieces read before it. -/
theorem pieced_frameOf {token : Token} {frame : List Node → Frame}
    (opens : frameOf? token = some frame) {room : Nat} {run : List Node}
    (pieces : ∀ node ∈ run, Piece (room + 1) node) : (frame run).Pieced room := by
  obtain ⟨var, path, span, rfl, rfl⟩ | ⟨path, span, rfl, rfl⟩ := opening_cases opens
  · exact pieces
  · exact ⟨pieces, List.forall_mem_nil _⟩

namespace State

/-- One more piece may be read. -/
theorem Pieced.push {bound : Nat} {frames : List Frame} {run : List Node} {surplus : Nat}
    (pieced : Pieced bound ⟨frames, run, surplus⟩) {node : Node}
    (piece : ∀ room, Piece room node) (surplus' : Nat) :
    Pieced bound ⟨frames, node :: run, surplus'⟩ := by
  obtain ⟨room, layered, pieces⟩ := pieced
  exact ⟨room, layered, List.forall_mem_cons.mpr ⟨piece room, pieces⟩⟩

/-- The construct that is open innermost holds pieces, and so does the row read in it. -/
theorem Pieced.innermost {bound : Nat} {frame : Frame} {frames : List Frame} {run : List Node}
    {surplus : Nat} (pieced : Pieced bound ⟨frame :: frames, run, surplus⟩) :
    ∃ room, Layered bound (room + 1) frames ∧ frame.Pieced room ∧
      ∀ node ∈ run, Piece room node := by
  obtain ⟨room, layered, pieces⟩ := pieced
  cases layered with
  | inside below held => exact ⟨room, below, held, pieces⟩

/-- A token inside the text keeps all rows as they should be. -/
theorem Pieced.move {limit : Int} {state state' : State} {token : Token} {notices : List Notice}
    (pieced : state.Pieced limit.toNat) (inside : token.lexeme ≠ .endOfText)
    (covers : token.lexeme ≠ .raw "") (moved : Move limit state token state' notices) :
    state'.Pieced limit.toNat := by
  cases moved with
  | flattened frames run surplus =>
    exact pieced.push (fun room => piece_loose room inside covers) _
  | leaf frames run stands =>
    rw [← loose_of_leaf stands]
    exact pieced.push (fun room => piece_loose room inside covers) 0
  | @opened frames run _ frame opens room =>
    obtain ⟨left, layered, pieces⟩ := pieced
    have levels : frames.length + left = limit.toNat := layered.length_add
    obtain ⟨left, rfl⟩ : ∃ more, left = more + 1 := ⟨left - 1, by omega⟩
    exact ⟨left, .inside layered (pieced_frameOf opens pieces), List.forall_mem_nil _⟩
  | tooDeep frames run opens deep =>
    have tag : Node.leaf? token = none := by
      obtain ⟨_, _, _, rfl, -⟩ | ⟨_, _, rfl, -⟩ := opening_cases opens
      · rfl
      · rfl
    exact pieced.push (fun room => .unexpected room tag inside) 1
  | stray run closes =>
    exact pieced.push (fun room => .unexpected room (leaf?_of_closer closes) inside) 0
  | closedLoop frames run outer var path opening span =>
    obtain ⟨room, below, before, pieces⟩ := pieced.innermost
    have closed := Piece.loop var path opening span pieces
    exact ⟨room + 1, below, List.forall_mem_cons.mpr ⟨closed, before⟩⟩
  | furtherBranch frames run outer earlier path path' span span' =>
    obtain ⟨room, below, ⟨before, bodies⟩, pieces⟩ := pieced.innermost
    have held : (Frame.branch outer (⟨path, span, run⟩ :: earlier) path' span').Pieced room :=
      ⟨before, List.forall_mem_cons.mpr ⟨pieces, bodies⟩⟩
    exact ⟨room, .inside below held, List.forall_mem_nil _⟩
  | lastBranch frames run outer earlier path span span' =>
    obtain ⟨room, below, ⟨before, bodies⟩, pieces⟩ := pieced.innermost
    have held : (Frame.alternative outer (⟨path, span, run⟩ :: earlier) span').Pieced room :=
      ⟨before, List.forall_mem_cons.mpr ⟨pieces, bodies⟩, List.cons_ne_nil _ _⟩
    exact ⟨room, .inside below held, List.forall_mem_nil _⟩
  | closedBranch frames run outer earlier path span span' =>
    obtain ⟨room, below, ⟨before, bodies⟩, pieces⟩ := pieced.innermost
    have branches : ∀ branch ∈ (⟨path, span, run⟩ :: earlier : List (Branch (List Node))),
        ∀ node ∈ branch.body, Piece room node := List.forall_mem_cons.mpr ⟨pieces, bodies⟩
    have closed := Piece.choice (List.cons_ne_nil _ _) branches
      (fun alternative (absent : none = some alternative) => nomatch absent) span'
    exact ⟨room + 1, below, List.forall_mem_cons.mpr ⟨closed, before⟩⟩
  | closedAlternative frames run outer branches span span' =>
    obtain ⟨room, below, ⟨before, bodies, nonempty⟩, pieces⟩ := pieced.innermost
    have last : ∀ alternative : Alternative (List Node), some ⟨span, run⟩ = some alternative →
        ∀ node ∈ alternative.body, Piece room node := by
      rintro alternative same
      obtain rfl := Option.some.inj same
      exact pieces
    have closed := Piece.choice nonempty bodies last span'
    exact ⟨room + 1, below, List.forall_mem_cons.mpr ⟨closed, before⟩⟩
  | abandoned frame frames run closes refused =>
    obtain ⟨room, below, held, pieces⟩ := pieced.innermost
    obtain ⟨left, -, pieces', apart⟩ := held.abandon token
    have met : Piece (room + 1) (.unexpected token) :=
      .unexpected _ (leaf?_of_closer closes) inside
    refine ⟨room + 1, below, ?_⟩
    simp only [apart, List.forall_mem_cons, List.forall_mem_append]
    exact ⟨met, fun node member => (pieces node member).succ, pieces'⟩

/-- Tokens inside the text keep all rows as they should be. -/
theorem Pieced.foldl {limit : Int} {state : State} (pieced : state.Pieced limit.toNat)
    {read : List Token}
    (proper : ∀ token ∈ read, token.lexeme ≠ .endOfText ∧ token.lexeme ≠ .raw "") :
    (read.foldl (step limit) state).Pieced limit.toNat := by
  induction read generalizing state with
  | nil => exact pieced
  | cons token more ih =>
    obtain ⟨inside, covers⟩ := proper token (by simp)
    have moved := State.move limit state token inside
    exact ih (pieced.move inside covers moved) fun other member =>
      proper other (List.mem_cons_of_mem _ member)

end State

/-- Where constructs are taken apart one after the other, what they met is left behind all pieces
and nowhere else; and there are pieces where it is left. -/
theorem Layered.foldl_abandon {bound room : Nat} {frames : List Frame}
    (layered : Layered bound room frames) (closer : Token) {run : List Node}
    (pieces : ∀ node ∈ run, Piece room node) (count : Nat) (nonempty : 0 < count → run ≠ []) :
    ∃ count' run', frames.foldl (fun run frame => frame.abandon closer run)
        (List.replicate count (.unexpected closer) ++ run) =
          List.replicate count' (.unexpected closer) ++ run' ∧
      (∀ node ∈ run', Piece bound node) ∧ (0 < count' → run' ≠ []) := by
  induction layered generalizing run count with
  | bottom => exact ⟨count, run, rfl, pieces, nonempty⟩
  | inside below held ih =>
    obtain ⟨left, some, pieces', apart⟩ := held.abandon closer
    have widened : ∀ node ∈ run ++ left, Piece _ node := List.forall_mem_append.mpr
      ⟨fun node member => (pieces node member).succ, pieces'⟩
    have following := ih widened (count + 1)
      fun _ => List.append_ne_nil_of_right_ne_nil run some
    rw [List.replicate_succ, List.cons_append] at following
    rw [List.foldl_cons, apart, List.append_assoc]
    exact following

/-- The tree of a text is a row of pieces within the limit, and behind them the end of the text,
once for every construct that it took apart. -/
theorem parse_eq_pieces (limit : Int) (text : String) :
    ∃ stop front count, tokenize text = contentTokens text ++ [⟨.endOfText, .empty stop⟩] ∧
      parse limit text = .ofRun (.empty stop)
        (front ++ List.replicate count (.unexpected ⟨.endOfText, .empty stop⟩)) ∧
      (∀ node ∈ front, Piece limit.toNat node) ∧ (0 < count → front ≠ []) := by
  obtain ⟨stop, split, tree, -⟩ := parse_eq_finish limit text
  have proper : ∀ token ∈ contentTokens text,
      token.lexeme ≠ .endOfText ∧ token.lexeme ≠ .raw "" := by
    intro token member
    have own := proper_of_mem_contentTokens member
    exact ⟨own.not_end, fun nothing => own.covers (own.raw_eq "" nothing).symm⟩
  have start : State.initial.Pieced limit.toNat :=
    ⟨limit.toNat, .bottom, List.forall_mem_nil _⟩
  obtain ⟨room, layered, pieces⟩ := start.foldl proper
  obtain ⟨count, run, left, pieces', nonempty⟩ :=
    layered.foldl_abandon ⟨.endOfText, .empty stop⟩ pieces 0 nofun
  refine ⟨stop, run.reverse, count, split, ?_, ?_, ?_⟩
  · rw [tree, State.finish]
    have reached : (assembled limit text).frames.foldl
        (fun run frame => frame.abandon ⟨.endOfText, .empty stop⟩ run)
        (assembled limit text).run = _ := left
    simp only [reached, List.reverse_append, List.reverse_replicate]
  · intro node member
    exact pieces' node (List.mem_reverse.mp member)
  · intro more
    rw [ne_eq, List.reverse_eq_nil_iff]
    exact nonempty more

end TextTemplate.Expression
