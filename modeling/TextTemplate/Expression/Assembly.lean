import TextTemplate.Fault
import TextTemplate.Markup.Tokenize

/-!
# Assembling the tokens of a template into a tree

Tokens are assembled one after the other. The constructs that are open are kept on a stack, and
every one of them holds what was read before it. Nothing is refused and nothing is lost:

* a closer with nothing open to close stays as an unexpected token;
* a construct that meets a wrong closer, or the end of the text, is taken apart into its tags, as
  unexpected tokens, and what stood between them;
* a construct nested too deep is flattened: until its opening and closing tags balance, every tag
  is kept as an unexpected token. The tags are counted without regard to their kind.

Each of these leaves a notice. All rows of nodes in a state have the newest node first.
-/

namespace TextTemplate.Expression

open Text Markup

/-- A construct that is open, on top of the nodes `outer` read before it. -/
inductive Frame where
  /-- A loop; its body is being read. -/
  | loop (outer : List Node) (var : Ident) (path : Path) (opening : Span)
  /-- A conditional; a branch is being read, after earlier ones, the newest first. -/
  | branch (outer : List Node) (earlier : List (Branch (List Node))) (path : Path) (span : Span)
  /-- A conditional; its alternative is being read, after all branches, the newest first. -/
  | alternative (outer : List Node) (branches : List (Branch (List Node))) (span : Span)

/-- How far a template has been assembled. -/
structure State where
  /-- The constructs that are open, the innermost first. -/
  frames : List Frame
  /-- The nodes read in the innermost construct so far, the newest first. -/
  run : List Node
  /-- By how much the opening tags exceed the closing ones in a construct being flattened; zero
  outside of one. -/
  surplus : Nat

/-- Something a template should not hold. -/
inductive Notice where
  /-- A closer with nothing open to close. -/
  | unexpected (token : Token)
  /-- A construct nested too deep. -/
  | tooDeep (limit : Int) (opener : Token)
  /-- A loop, started at a place, that met a wrong closer. -/
  | unclosedLoop (start : Pos) (closer : Token)
  /-- A conditional, started at a place, that met a wrong closer. -/
  | unclosedChoice (start : Pos) (closer : Token)
  deriving DecidableEq

/-- The node of a token that stands for itself, absent for a tag of a construct. -/
def Node.leaf? (token : Token) : Option Node :=
  match token.lexeme with
  | .raw text => some (.raw text token.span)
  | .invalid text => some (.invalid text token.span)
  | .use path => some (.use path token.span)
  | _ => none

/-- The node of a token outside of all constructs: a leaf, or an unexpected token. -/
def Node.loose (token : Token) : Node := (leaf? token).getD (.unexpected token)

/-- The body between an opening tag and what ends it, from nodes with the newest first. An empty
body sits behind the opening tag. -/
def bodyAfter (opening : Span) (run : List Node) : Node :=
  .ofRun (.empty opening.stop) run.reverse

/-- The conditional of the given branches, the newest first. -/
def choiceOf (branches : List (Branch (List Node))) (otherwise : Option (Alternative (List Node)))
    (closing : Span) : Node :=
  .choice (branches.reverse.map fun branch => branch.map (bodyAfter branch.span))
    (otherwise.map fun alternative => alternative.map (bodyAfter alternative.span)) closing

/-- The place of the tag that opened a conditional, from its branches, the newest first. -/
def openingSpan (last : Span) : List (Branch (List Node)) → Span
  | [] => last
  | branch :: earlier => openingSpan branch.span earlier

/-- The tag of a branch that the given earlier branches stand before. -/
def tagAfter (earlier : List (Branch (List Node))) (path : Path) (span : Span) : Token :=
  ⟨if earlier.isEmpty then .ifStart path else .elifTag path, span⟩

/-- Branches, the newest first, taken apart on top of the nodes `outer`. -/
def scattered (outer : List Node) : List (Branch (List Node)) → List Node
  | [] => outer
  | ⟨path, span, body⟩ :: earlier =>
    body ++ .unexpected (tagAfter earlier path span) :: scattered outer earlier

namespace Frame

/-- Where the construct was opened. -/
def start : Frame → Pos
  | .loop _ _ _ opening => opening.start
  | .branch _ earlier _ span => (openingSpan span earlier).start
  | .alternative _ branches span => (openingSpan span branches).start

/-- Whether the construct can be continued or closed by a closer. -/
def accepts : Frame → Lexeme → Bool
  | .loop _ _ _ _, .forEnd => true
  | .branch _ _ _ _, .elifTag _ => true
  | .branch _ _ _ _, .elseTag => true
  | .branch _ _ _ _, .ifEnd => true
  | .alternative _ _ _, .ifEnd => true
  | _, _ => false

/-- The construct, whose innermost nodes are `run`, taken apart by a closer it cannot use. -/
def abandon (closer : Token) (run : List Node) : Frame → List Node
  | .loop outer var path opening =>
    .unexpected closer :: (run ++ .unexpected ⟨.forStart var path, opening⟩ :: outer)
  | .branch outer earlier path span =>
    .unexpected closer ::
      (run ++ .unexpected (tagAfter earlier path span) :: scattered outer earlier)
  | .alternative outer branches span =>
    .unexpected closer :: (run ++ .unexpected ⟨.elseTag, span⟩ :: scattered outer branches)

/-- The notice that a closer could not be used by the construct. -/
def notice (closer : Token) (frame : Frame) : Notice :=
  match frame with
  | .loop _ _ _ _ => .unclosedLoop frame.start closer
  | .branch _ _ _ _ | .alternative _ _ _ => .unclosedChoice frame.start closer

end Frame

namespace State

/-- Nothing has been read. -/
def initial : State := ⟨[], [], 0⟩

/-- One more node in the innermost construct. -/
def push (state : State) (node : Node) : State := { state with run := node :: state.run }

/-- Whether a further construct would be nested deeper than `limit`. -/
def tooDeep (limit : Int) (state : State) : Bool := limit ≤ state.frames.length

/-- Whether a construct is being flattened. -/
def flattening (state : State) : Bool := 0 < state.surplus

/-- One more token of a construct that is flattened. -/
def flatten (state : State) (token : Token) : State :=
  { state.push (.loose token) with
    surplus :=
      match token.lexeme with
      | .forStart _ _ | .ifStart _ => state.surplus + 1
      | .forEnd | .ifEnd => state.surplus - 1
      | _ => state.surplus }

/-- A construct is opened, unless it is nested too deep. -/
def enter (limit : Int) (state : State) (token : Token) (frame : List Node → Frame) : State :=
  if state.tooDeep limit then state.flatten token
  else { state with frames := frame state.run :: state.frames, run := [] }

/-- A closer continues the innermost construct, closes it, or makes it fall apart. -/
def close (state : State) (token : Token) : State :=
  match state.frames with
  | [] => state.push (.unexpected token)
  | frame :: frames =>
    match frame, token.lexeme with
    | .loop outer var path opening, .forEnd =>
      { state with
        frames := frames
        run := .loop var path opening token.span (bodyAfter opening state.run) :: outer }
    | .branch outer earlier path span, .elifTag path' =>
      { state with
        frames := .branch outer (⟨path, span, state.run⟩ :: earlier) path' token.span :: frames
        run := [] }
    | .branch outer earlier path span, .elseTag =>
      { state with
        frames := .alternative outer (⟨path, span, state.run⟩ :: earlier) token.span :: frames
        run := [] }
    | .branch outer earlier path span, .ifEnd =>
      { state with
        frames := frames
        run := choiceOf (⟨path, span, state.run⟩ :: earlier) none token.span :: outer }
    | .alternative outer branches span, .ifEnd =>
      { state with
        frames := frames
        run := choiceOf branches (some ⟨span, state.run⟩) token.span :: outer }
    | frame, _ => { state with frames := frames, run := frame.abandon token state.run }

/-- The end of the text takes all open constructs apart. -/
def finish (state : State) (token : Token) : State :=
  ⟨[], state.frames.foldl (fun run frame => frame.abandon token run) state.run, 0⟩

/-- Reads one more token; constructs may nest up to `limit` deep. -/
def step (limit : Int) (state : State) (token : Token) : State :=
  if token.lexeme = .endOfText then state.finish token
  else if state.flattening then state.flatten token
  else
    match token.lexeme with
    | .forStart var path => state.enter limit token fun outer => .loop outer var path token.span
    | .ifStart path => state.enter limit token fun outer => .branch outer [] path token.span
    | .forEnd | .elifTag _ | .elseTag | .ifEnd => state.close token
    | _ => state.push (.loose token)

/-- The loop that flattens a construct from its opening tag on: tokens are read until nothing is
flattened any more or the text ends, in at most so many rounds. What is left of the row comes with
the state. -/
def tryFlatten (limit : Int) : Nat → State → List Token → Except Fault (State × List Token)
  | 0, _, _ => throw .unfinished
  | _ + 1, state, [] => return (state, [])
  | rounds + 1, state, token :: more =>
    if token.lexeme = .endOfText then return (state, token :: more)
    else
      let next := state.step limit token
      if next.flattening then tryFlatten limit rounds next more else return (next, more)

/-- What there is to say about a token before it is read. -/
def notices (limit : Int) (state : State) (token : Token) : List Notice :=
  if token.lexeme = .endOfText then state.frames.map (·.notice token)
  else if state.flattening then []
  else
    match token.lexeme with
    | .forStart _ _ | .ifStart _ =>
      if state.tooDeep limit then [.tooDeep limit token] else []
    | .forEnd | .elifTag _ | .elseTag | .ifEnd =>
      match state.frames with
      | [] => [.unexpected token]
      | frame :: _ => if frame.accepts token.lexeme then [] else [frame.notice token]
    | _ => []

/-- All notices on tokens read in turn. -/
def allNotices (limit : Int) : State → List Token → List Notice
  | _, [] => []
  | state, token :: more =>
    state.notices limit token ++ allNotices limit (state.step limit token) more

end State

/-- The tree of a row of tokens that the end of a text concludes. Without any other token it is
empty text at that end. -/
def Node.ofTokens (limit : Int) (tokens : List Token) : Node :=
  .ofRun (tokens.getLast?.elim (.empty .start) (·.span))
    (tokens.foldl (State.step limit) .initial).run.reverse

/-- The tree of a text, with constructs nested up to `limit` deep. -/
def parse (limit : Int) (text : String) : Node := .ofTokens limit (tokenize text)

/-- What there is to say about a text while it is parsed. -/
def parseNotices (limit : Int) (text : String) : List Notice :=
  State.allNotices limit .initial (tokenize text)

end TextTemplate.Expression
