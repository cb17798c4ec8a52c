import TextTemplate.Proofs.AssemblySteps

/-!
# The tokens of a tree are the tokens of its text

Read from left to right, a tree holds the tokens it was assembled from, in their order and each
once. What is open during the assembly holds its part of them, so every step adds the token it
reads and nothing else. Beside them a tree holds only the end of the text, where it took constructs
apart, and empty texts in place of empty bodies.
-/

namespace TextTemplate.Markup

/-- A token that was read inside a text: neither its end nor empty literal text. -/
def Token.genuine (token : Token) : Bool :=
  token.lexeme != .endOfText && token.lexeme != .raw ""

/-- A proper token is genuine. -/
theorem Token.Proper.genuine {token : Token} (proper : token.Proper) : token.genuine = true := by
  simp only [Token.genuine, Bool.and_eq_true, bne_iff_ne, ne_eq]
  exact ⟨proper.not_end, fun nothing => proper.covers (proper.raw_eq "" nothing).symm⟩

end TextTemplate.Markup

namespace TextTemplate.Expression

open Text Markup

namespace Node

mutual

/-- The tokens of an expression from left to right. -/
def tokens : Node → List Token
  | .raw text span => [⟨.raw text, span⟩]
  | .invalid text span => [⟨.invalid text, span⟩]
  | .use path span => [⟨.use path, span⟩]
  | .unexpected token => [token]
  | .loop var path opening closing body =>
    ⟨.forStart var path, opening⟩ :: (body.tokens ++ [⟨.forEnd, closing⟩])
  | .choice branches otherwise closing =>
    branchTokens true branches ++ alternativeTokens otherwise ++ [⟨.ifEnd, closing⟩]
  | .concat children => allTokens children

/-- The tokens of branches from left to right; only the first branch of a conditional is opened by
an if tag. -/
def branchTokens (first : Bool) : List (Branch Node) → List Token
  | [] => []
  | ⟨path, span, body⟩ :: more =>
    ⟨if first then .ifStart path else .elifTag path, span⟩ ::
      (body.tokens ++ branchTokens false more)

/-- The tokens of an alternative. -/
def alternativeTokens : Option (Alternative Node) → List Token
  | none => []
  | some ⟨span, body⟩ => ⟨.elseTag, span⟩ :: body.tokens

/-- The tokens of expressions one after the other. -/
def allTokens : List Node → List Token
  | [] => []
  | node :: more => node.tokens ++ allTokens more

end

/-- Expressions in a row contribute their tokens. -/
theorem allTokens_eq_flatMap (nodes : List Node) : allTokens nodes = nodes.flatMap tokens := by
  induction nodes with
  | nil => rfl
  | cons node more ih => rw [allTokens, ih, List.flatMap_cons]

/-- Branches in a row contribute their tokens; those behind the first one are no first ones. -/
theorem branchTokens_append (first : Bool) (front back : List (Branch Node)) :
    branchTokens first (front ++ back) =
      branchTokens first front ++ branchTokens (first && front.isEmpty) back := by
  induction front generalizing first with
  | nil => simp [branchTokens]
  | cons branch more ih =>
    obtain ⟨path, span, body⟩ := branch
    simp [branchTokens, ih]

end Node

/-- The tokens of nodes in a row, the newest first. -/
def runTokens (run : List Node) : List Token := run.reverse.flatMap Node.tokens

/-- The tokens of the branches of a conditional that is open, the newest first. -/
def earlierTokens : List (Branch (List Node)) → List Token
  | [] => []
  | ⟨path, span, body⟩ :: earlier =>
    earlierTokens earlier ++ tagAfter earlier path span :: runTokens body

/-- The tokens that a construct holds while it is open, up to the tag that was read last. -/
def Frame.tokens : Frame → List Token
  | .loop outer var path opening => runTokens outer ++ [⟨.forStart var path, opening⟩]
  | .branch outer earlier path span =>
    runTokens outer ++ (earlierTokens earlier ++ [tagAfter earlier path span])
  | .alternative outer branches span =>
    runTokens outer ++ (earlierTokens branches ++ [⟨.elseTag, span⟩])

/-- The tokens held in the course of the assembly, from left to right. -/
def State.tokens (state : State) : List Token :=
  state.frames.reverse.flatMap Frame.tokens ++ runTokens state.run

/-- No nodes hold no tokens. -/
@[simp] theorem runTokens_nil : runTokens [] = [] := rfl

/-- A new node adds its tokens at the end. -/
@[simp] theorem runTokens_cons (node : Node) (run : List Node) :
    runTokens (node :: run) = runTokens run ++ node.tokens := by
  simp [runTokens]

/-- Newer nodes add their tokens at the end. -/
@[simp] theorem runTokens_append (newer run : List Node) :
    runTokens (newer ++ run) = runTokens run ++ runTokens newer := by
  simp [runTokens]

/-- Branches taken apart keep their tokens. -/
@[simp] theorem runTokens_scattered (outer : List Node) (branches : List (Branch (List Node))) :
    runTokens (scattered outer branches) = runTokens outer ++ earlierTokens branches := by
  induction branches with
  | nil => simp [scattered, earlierTokens]
  | cons branch earlier ih =>
    obtain ⟨path, span, body⟩ := branch
    simp [scattered, earlierTokens, Node.tokens, ih]

/-- A construct taken apart keeps its tokens, and the closer stands behind them. -/
theorem runTokens_abandon (closer : Token) (run : List Node) (frame : Frame) :
    runTokens (frame.abandon closer run) = frame.tokens ++ runTokens run ++ [closer] := by
  cases frame <;> simp [Frame.abandon, Frame.tokens, Node.tokens]

/-- A token on its own keeps itself. -/
theorem tokens_loose (token : Token) : (Node.loose token).tokens = [token] := by
  obtain ⟨lexeme, span⟩ := token
  cases lexeme <;> rfl

/-- The frame that an opening tag puts up adds that tag. -/
theorem tokens_frameOf {token : Token} {frame : List Node → Frame}
    (opens : frameOf? token = some frame) (outer : List Node) :
    (frame outer).tokens = runTokens outer ++ [token] := by
  obtain ⟨var, path, span, rfl, rfl⟩ | ⟨path, span, rfl, rfl⟩ := opening_cases opens
  · rfl
  · rfl

/-- Joining a run adds no more than an empty text. -/
theorem genuine_ofRun (anchor : Span) (nodes : List Node) :
    (Node.ofRun anchor nodes).tokens.filter Token.genuine =
      (nodes.flatMap Node.tokens).filter Token.genuine := by
  match nodes with
  | [] => simp [Node.ofRun, Node.tokens, Token.genuine]
  | [node] => simp [Node.ofRun]
  | _ :: _ :: _ => simp only [Node.ofRun, Node.tokens, Node.allTokens_eq_flatMap]

/-- The body of a construct holds the tokens read for it. -/
theorem genuine_bodyAfter (opening : Span) (run : List Node) :
    (bodyAfter opening run).tokens.filter Token.genuine = (runTokens run).filter Token.genuine :=
  genuine_ofRun _ _

/-- The branches of a conditional hold the tokens read for them. -/
theorem genuine_branchTokens (branches : List (Branch (List Node))) :
    (Node.branchTokens true
        (branches.reverse.map fun branch => branch.map (bodyAfter branch.span))).filter
          Token.genuine =
      (earlierTokens branches).filter Token.genuine := by
  induction branches with
  | nil => rfl
  | cons branch earlier ih =>
    obtain ⟨path, span, body⟩ := branch
    have first : (earlier.reverse.map fun branch => branch.map (bodyAfter branch.span)).isEmpty =
        earlier.isEmpty := by cases earlier <;> simp
    rw [List.reverse_cons, List.map_append, Node.branchTokens_append, List.filter_append, ih,
      first]
    simp [earlierTokens, Branch.map, Node.branchTokens, tagAfter, genuine_bodyAfter,
      List.filter_cons]

/-- The tokens of an alternative that was read, its tag in front. -/
def alternativeRunTokens (otherwise : Option (Alternative (List Node))) : List Token :=
  otherwise.elim [] fun alternative =>
    ⟨.elseTag, alternative.span⟩ :: runTokens alternative.body

/-- A conditional holds the tokens read for it. -/
theorem genuine_choiceOf (branches : List (Branch (List Node)))
    (otherwise : Option (Alternative (List Node))) (closing : Span) :
    (choiceOf branches otherwise closing).tokens.filter Token.genuine =
      (earlierTokens branches ++ alternativeRunTokens otherwise
        ++ [Token.mk .ifEnd closing]).filter Token.genuine := by
  simp only [choiceOf, Node.tokens, List.filter_append, genuine_branchTokens]
  cases otherwise with
  | none => rfl
  | some alternative =>
    simp [alternativeRunTokens, Alternative.map, Node.alternativeTokens, List.filter_cons,
      genuine_bodyAfter]

/-- A token inside the text is added to the tokens held, and nothing else changes. -/
theorem genuine_move {limit : Int} {state state' : State} {token : Token} {notices : List Notice}
    (moved : Move limit state token state' notices) :
    state'.tokens.filter Token.genuine =
      (state.tokens ++ [token]).filter Token.genuine := by
  cases moved with
  | flattened frames run surplus => simp [State.tokens, State.flatten, State.push, tokens_loose]
  | leaf frames run stands => simp [State.tokens, ← loose_of_leaf stands, tokens_loose]
  | opened frames run opens room => simp [State.tokens, tokens_frameOf opens]
  | tooDeep frames run opens deep => simp [State.tokens, Node.tokens]
  | stray run closes => simp [State.tokens, Node.tokens]
  | closedLoop frames run outer var path opening span =>
    simp [State.tokens, Frame.tokens, Node.tokens, List.filter_cons, genuine_bodyAfter,
      Token.genuine]
  | furtherBranch frames run outer earlier path path' span span' =>
    simp [State.tokens, Frame.tokens, earlierTokens, tagAfter]
  | lastBranch frames run outer earlier path span span' =>
    simp [State.tokens, Frame.tokens, earlierTokens]
  | closedBranch frames run outer earlier path span span' =>
    simp [State.tokens, Frame.tokens, earlierTokens, genuine_choiceOf, alternativeRunTokens]
  | closedAlternative frames run outer branches span span' =>
    simp [State.tokens, Frame.tokens, genuine_choiceOf, alternativeRunTokens]
  | abandoned frame frames run closes refused =>
    simp [State.tokens, runTokens_abandon]

/-- Tokens inside the text are added one after the other. -/
theorem genuine_foldl (limit : Int) (state : State) (read : List Token)
    (inside : ∀ token ∈ read, token.lexeme ≠ .endOfText) :
    (read.foldl (State.step limit) state).tokens.filter Token.genuine =
      (state.tokens ++ read).filter Token.genuine := by
  induction read generalizing state with
  | nil => simp
  | cons token more ih =>
    have moved := State.move limit state token (inside token (by simp))
    rw [List.foldl_cons, ih _ fun t member => inside t (List.mem_cons_of_mem _ member),
      List.filter_append, genuine_move moved, ← List.filter_append, List.append_assoc,
      List.singleton_append]

/-- Taking apart all constructs that are open adds nothing but the end of the text. -/
theorem genuine_foldl_abandon (closer : Token) (frames : List Frame) (run : List Node)
    (ending : closer.lexeme = .endOfText) :
    (runTokens (frames.foldl (fun run frame => frame.abandon closer run) run)).filter
        Token.genuine =
      (frames.reverse.flatMap Frame.tokens ++ runTokens run).filter Token.genuine := by
  have dropped : closer.genuine = false := by simp [Token.genuine, ending]
  induction frames generalizing run with
  | nil => rfl
  | cons frame frames ih =>
    rw [List.foldl_cons, ih, List.filter_append, runTokens_abandon]
    simp [dropped]

/-- The tree of a text holds the tokens inside it, and nothing else that is genuine. -/
theorem genuine_parse (limit : Int) (text : String) :
    (parse limit text).tokens.filter Token.genuine = contentTokens text := by
  obtain ⟨stop, -, tree, -⟩ := parse_eq_finish limit text
  have all : (contentTokens text).filter Token.genuine = contentTokens text :=
    List.filter_eq_self.mpr fun token member => (proper_of_mem_contentTokens member).genuine
  have read := genuine_foldl limit .initial (contentTokens text)
    fun token member => (proper_of_mem_contentTokens member).not_end
  rw [tree, genuine_ofRun, State.finish]
  refine (genuine_foldl_abandon _ _ _ rfl).trans (read.trans ?_)
  simpa [State.initial, State.tokens] using all

/-- The parser loses, duplicates and reorders nothing. What a tree holds from left to right, the
ends of the text and the empty texts left out, are the tokens of the text in front of its end,
spans included. Their spans one after the other are the text, so texts with equal trees are
equal. -/
theorem parse_keeps_tokens (limit : Int) (text : String) :
    (∃ stop, tokenize text =
      (parse limit text).tokens.filter Token.genuine ++ [⟨.endOfText, .empty stop⟩]) ∧
    String.join (((parse limit text).tokens.filter Token.genuine).map (·.span.raw)) = text ∧
    ∀ other, parse limit text = parse limit other ↔ text = other := by
  refine ⟨?_, ?_, fun other => ⟨fun same => ?_, fun same => by rw [same]⟩⟩
  · rw [genuine_parse]
    exact (contentTokens_spec text).1
  · rw [genuine_parse]
    exact join_raw_contentTokens text
  · have contents : contentTokens text = contentTokens other := by
      rw [← genuine_parse limit text, same, genuine_parse]
    rw [← join_raw_contentTokens text, contents, join_raw_contentTokens]

end TextTemplate.Expression
