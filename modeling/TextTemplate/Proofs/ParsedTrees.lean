import TextTemplate.Proofs.HeldNodes

/-!
# Proving what holds of all parsed trees

A tree that was parsed is made of leaves, unexpected tokens, loops, conditionals of at least one
branch, and sequences. A property that is passed on by each of them holds of every parsed tree; on
the way it holds of all nodes held while the text is assembled.
-/

namespace TextTemplate.Expression

open Text Markup

/-- A property of expressions that is passed on by everything that is built while parsing. -/
structure Node.Inherited (P : Node → Prop) : Prop where
  /-- It holds of literal text. -/
  raw : ∀ text span, P (.raw text span)
  /-- It holds of tags that could not be read. -/
  invalid : ∀ text span, P (.invalid text span)
  /-- It holds of places of values. -/
  use : ∀ path span, P (.use path span)
  /-- It holds of unexpected tokens. -/
  unexpected : ∀ token, P (.unexpected token)
  /-- It is passed on by loops. -/
  loop : ∀ var path opening closing body, P body → P (.loop var path opening closing body)
  /-- It is passed on by conditionals of at least one branch. -/
  choice : ∀ branches otherwise closing, branches ≠ [] → (∀ branch ∈ branches, P branch.body) →
    (∀ alternative, otherwise = some alternative → P alternative.body) →
    P (.choice branches otherwise closing)
  /-- It is passed on by sequences. -/
  concat : ∀ children, (∀ child ∈ children, P child) → P (.concat children)

namespace Node.Inherited

variable {P : Node → Prop} (inherited : Node.Inherited P)
include inherited

/-- A token on its own has the property. -/
theorem loose (token : Token) : P (.loose token) := by
  obtain ⟨lexeme, span⟩ := token
  cases lexeme with
  | raw text => exact inherited.raw text span
  | invalid text => exact inherited.invalid text span
  | use path => exact inherited.use path span
  | endOfText | forStart _ _ | forEnd | ifStart _ | elifTag _ | elseTag | ifEnd =>
    exact inherited.unexpected _

/-- Nodes in a run pass the property on. -/
theorem ofRun (anchor : Span) {nodes : List Node} (held : ∀ node ∈ nodes, P node) :
    P (.ofRun anchor nodes) := by
  match nodes with
  | [] => exact inherited.raw "" anchor
  | [node] => exact held node (by simp)
  | first :: second :: more => exact inherited.concat _ held

/-- A body passes the property on. -/
theorem bodyAfter (opening : Span) {run : List Node} (held : ∀ node ∈ run, P node) :
    P (bodyAfter opening run) :=
  inherited.ofRun _ fun node member => held node (List.mem_reverse.mp member)

/-- A conditional of at least one branch passes the property on. -/
theorem choiceOf {branches : List (Branch (List Node))} (nonempty : branches ≠ [])
    (held : ∀ node ∈ branches.flatMap (·.body), P node)
    {otherwise : Option (Alternative (List Node))}
    (held' : ∀ alternative, otherwise = some alternative → ∀ node ∈ alternative.body, P node)
    (closing : Span) : P (choiceOf branches otherwise closing) := by
  refine inherited.choice _ _ _ (by simpa using nonempty) ?_ ?_
  · intro branch member
    obtain ⟨source, inside, rfl⟩ := List.mem_map.mp member
    refine inherited.bodyAfter _ fun node own => held node ?_
    exact List.mem_flatMap.mpr ⟨source, List.mem_reverse.mp inside, own⟩
  · intro alternative same
    obtain ⟨source, given, rfl⟩ := Option.map_eq_some_iff.mp same
    exact inherited.bodyAfter _ (held' source given)

end Node.Inherited

/-- All nodes held have the property, and no conditional has lost its branches. -/
structure State.Holds (P : Node → Prop) (state : State) : Prop where
  /-- All nodes held have the property. -/
  nodes : ∀ node ∈ state.nodes, P node
  /-- An alternative that is being read has a branch before it. -/
  branched : ∀ outer span, Frame.alternative outer [] span ∉ state.frames

namespace State

variable {P : Node → Prop} (inherited : Node.Inherited P)
include inherited

/-- Taking apart the innermost construct keeps the property. -/
theorem Holds.abandon {frame : Frame} {frames : List Frame} {run : List Node} {surplus : Nat}
    (holds : Holds P ⟨frame :: frames, run, surplus⟩) (closer : Token) :
    Holds P ⟨frames, frame.abandon closer run, surplus⟩ := by
  obtain ⟨held, branched⟩ := holds
  refine ⟨?_, fun o s member => branched o s (List.mem_cons_of_mem _ member)⟩
  simp only [State.nodes, List.flatMap_cons, ← List.append_assoc] at held
  rw [List.forall_mem_append] at held
  obtain ⟨own, below⟩ := held
  simp only [State.nodes, List.forall_mem_append]
  refine ⟨fun node member => ?_, below⟩
  rcases of_mem_abandon member with kept | ⟨tag, rfl⟩
  · exact own node kept
  · exact inherited.unexpected tag

/-- Reading a token keeps the property. -/
theorem Holds.move {limit : Int} {state state' : State} {token : Token} {notices : List Notice}
    (holds : state.Holds P) (moved : Move limit state token state' notices) : state'.Holds P := by
  have held := holds.nodes
  have branched := holds.branched
  cases moved with
  | flattened frames run surplus =>
    exact ⟨List.forall_mem_cons.mpr ⟨inherited.loose token, held⟩, branched⟩
  | @leaf frames run _ node stands =>
    have leaf : P node := loose_of_leaf stands ▸ inherited.loose token
    exact ⟨List.forall_mem_cons.mpr ⟨leaf, held⟩, branched⟩
  | @opened frames run _ frame opens room =>
    refine ⟨by simpa [State.nodes, nodes_frameOf opens] using held, fun outer span member => ?_⟩
    rcases List.mem_cons.mp member with same | member
    · obtain ⟨_, _, _, rfl, rfl⟩ | ⟨_, _, rfl, rfl⟩ := opening_cases opens
      · contradiction
      · contradiction
    · exact branched outer span member
  | tooDeep frames run opens deep =>
    exact ⟨List.forall_mem_cons.mpr ⟨inherited.unexpected token, held⟩, branched⟩
  | stray run closes =>
    exact ⟨List.forall_mem_cons.mpr ⟨inherited.unexpected token, held⟩, branched⟩
  | closedLoop frames run outer var path opening span =>
    simp only [State.nodes, Frame.nodes, List.flatMap_cons, List.forall_mem_append] at held
    obtain ⟨inside, before, below⟩ := held
    have closed := inherited.loop var path opening span _ (inherited.bodyAfter opening inside)
    refine ⟨?_, fun o s member => branched o s (List.mem_cons_of_mem _ member)⟩
    simp only [State.nodes, List.forall_mem_append, List.forall_mem_cons]
    exact ⟨⟨closed, before⟩, below⟩
  | furtherBranch frames run outer earlier path path' span span' =>
    simp only [State.nodes, Frame.nodes, List.flatMap_cons, List.forall_mem_append] at held
    obtain ⟨inside, ⟨before, own⟩, below⟩ := held
    refine ⟨?_, fun o s member => ?_⟩
    · simp only [State.nodes, Frame.nodes, List.flatMap_cons, List.forall_mem_append]
      exact ⟨List.forall_mem_nil _, ⟨before, inside, own⟩, below⟩
    · rcases List.mem_cons.mp member with same | member
      · contradiction
      · exact branched o s (List.mem_cons_of_mem _ member)
  | lastBranch frames run outer earlier path span span' =>
    simp only [State.nodes, Frame.nodes, List.flatMap_cons, List.forall_mem_append] at held
    obtain ⟨inside, ⟨before, own⟩, below⟩ := held
    refine ⟨?_, fun o s member => ?_⟩
    · simp only [State.nodes, Frame.nodes, List.flatMap_cons, List.forall_mem_append]
      exact ⟨List.forall_mem_nil _, ⟨before, inside, own⟩, below⟩
    · rcases List.mem_cons.mp member with same | member
      · obtain ⟨-, lost, -⟩ := Frame.alternative.inj same
        contradiction
      · exact branched o s (List.mem_cons_of_mem _ member)
  | closedBranch frames run outer earlier path span span' =>
    simp only [State.nodes, Frame.nodes, List.flatMap_cons, List.forall_mem_append] at held
    obtain ⟨inside, ⟨before, own⟩, below⟩ := held
    have closed : P (choiceOf (⟨path, span, run⟩ :: earlier) none span') := by
      refine inherited.choiceOf (List.cons_ne_nil _ _) ?_ ?_ span'
      · rw [List.flatMap_cons]
        exact List.forall_mem_append.mpr ⟨inside, own⟩
      · rintro alternative same
        contradiction
    refine ⟨?_, fun o s member => branched o s (List.mem_cons_of_mem _ member)⟩
    simp only [State.nodes, List.forall_mem_append, List.forall_mem_cons]
    exact ⟨⟨closed, before⟩, below⟩
  | closedAlternative frames run outer branches span span' =>
    have nonempty : branches ≠ [] := by
      rintro rfl
      exact branched outer span (by simp)
    simp only [State.nodes, Frame.nodes, List.flatMap_cons, List.forall_mem_append] at held
    obtain ⟨inside, ⟨before, own⟩, below⟩ := held
    have closed : P (choiceOf branches (some ⟨span, run⟩) span') := by
      refine inherited.choiceOf nonempty own (fun alternative same => ?_) span'
      obtain rfl := Option.some.inj same
      exact inside
    refine ⟨?_, fun o s member => branched o s (List.mem_cons_of_mem _ member)⟩
    simp only [State.nodes, List.forall_mem_append, List.forall_mem_cons]
    exact ⟨⟨closed, before⟩, below⟩
  | abandoned frame frames run closes refused => exact holds.abandon inherited token

/-- Reading tokens in a row keeps the property. -/
theorem Holds.foldl {limit : Int} {state : State} (holds : state.Holds P) {read : List Token}
    (inside : ∀ token ∈ read, token.lexeme ≠ .endOfText) :
    (read.foldl (step limit) state).Holds P :=
  foldl_keeps (fun holds moved => holds.move inherited moved) holds inside

/-- Taking apart what is open keeps the property. -/
theorem Holds.finish {state : State} (holds : state.Holds P) (closer : Token) :
    ∀ node ∈ (state.finish closer).run, P node := by
  obtain ⟨frames, run, surplus⟩ := state
  induction frames generalizing run with
  | nil => simpa [State.finish, State.nodes] using holds.nodes
  | cons frame frames ih => exact ih _ (holds.abandon inherited closer)

end State

/-- What is passed on by everything that is built while parsing holds of every parsed tree. -/
theorem Node.Inherited.parse {P : Node → Prop} (inherited : Node.Inherited P) (limit : Int)
    (text : String) : P (parse limit text) := by
  obtain ⟨stop, -, tree, -⟩ := parse_eq_finish limit text
  have start : State.initial.Holds P := ⟨nofun, fun _ _ => nofun⟩
  have holds : (assembled limit text).Holds P :=
    start.foldl inherited fun token member => (proper_of_mem_contentTokens member).not_end
  rw [tree]
  refine inherited.ofRun _ fun node member => ?_
  exact holds.finish inherited _ node (List.mem_reverse.mp member)

end TextTemplate.Expression
