import TextTemplate.Expression.Assembly
import TextTemplate.Proofs.ReadingOrder

/-!
# Assembling never fails a check

The assembly takes for granted that a token which is neither an opener nor a closer stands for
itself, and that there is something to join wherever nodes are joined. Here it is written once more
with these checks in it, and with every body joined as soon as it ends, even where the construct
falls apart. Whatever the tokens are and however deep constructs may nest, no check fails: the
checked assembly comes back with the tree.
-/

namespace TextTemplate

/-- What is refused at no element is refused at none in a row. -/
theorem Fault.mapM_ok {α β : Type} {attempt : α → Except Fault β} {total : α → β} {row : List α}
    (each : ∀ element ∈ row, attempt element = .ok (total element)) :
    row.mapM attempt = .ok (row.map total) := by
  induction row with
  | nil => rfl
  | cons element more ih =>
    have others := ih fun other member => each other (List.mem_cons_of_mem _ member)
    rw [List.mapM_cons, each element (by simp), Fault.ok_bind, others, Fault.ok_bind]
    rfl

/-- Steps none of which is refused lead where they lead without checks. -/
theorem Fault.foldlM_ok {α β : Type} {attempt : β → α → Except Fault β} {total : β → α → β}
    (each : ∀ state element, attempt state element = .ok (total state element)) (row : List α)
    (state : β) : row.foldlM attempt state = .ok (row.foldl total state) := by
  induction row generalizing state with
  | nil => rfl
  | cons element more ih => rw [List.foldlM_cons, each, Fault.ok_bind, ih, List.foldl_cons]

namespace Expression

open Text Markup

/-- The node of a token that stands for itself, refused for any other one. -/
def tryLeaf (token : Token) : Except Fault Node :=
  match Node.leaf? token with
  | some node => return node
  | none => throw (.noLeaf token.kind)

/-- Nodes joined into one, empty text at `anchor` where there are none. -/
def tryJoin (anchor : Span) (nodes : List Node) : Except Fault Node :=
  if nodes.isEmpty then return .raw "" anchor
  else
    match Node.join nodes with
    | .ok node => return node
    | .error misuse => throw (.misuse misuse)

/-- The body between an opening tag and what ends it, from nodes with the newest first. -/
def tryBodyAfter (opening : Span) (run : List Node) : Except Fault Node :=
  tryJoin (.empty opening.stop) run.reverse

/-- The conditional of the given branches, the newest first. -/
def tryChoiceOf (branches : List (Branch (List Node)))
    (otherwise : Option (Alternative (List Node))) (closing : Span) : Except Fault Node := do
  let joined ← branches.reverse.mapM fun branch => do
    let body ← tryBodyAfter branch.span branch.body
    return branch.map fun _ => body
  let last ← otherwise.toList.mapM fun alternative => do
    let body ← tryBodyAfter alternative.span alternative.body
    return alternative.map fun _ => body
  return .choice joined last.head? closing

/-- The construct, whose innermost nodes are `run`, taken apart by a closer it cannot use. The body
of a conditional is joined before the closer is looked at. -/
def Frame.tryAbandon (closer : Token) (run : List Node) (frame : Frame) :
    Except Fault (List Node) := do
  match frame with
  | .loop _ _ _ _ => return frame.abandon closer run
  | .branch _ _ _ span | .alternative _ _ span =>
    let _ ← tryBodyAfter span run
    return frame.abandon closer run

namespace State

/-- A closer continues the innermost construct, closes it, or makes it fall apart. -/
def tryClose (state : State) (token : Token) : Except Fault State := do
  match state.frames with
  | [] => return state.push (.unexpected token)
  | frame :: frames =>
    match frame, token.lexeme with
    | .loop outer var path opening, .forEnd =>
      let body ← tryBodyAfter opening state.run
      return { state with
        frames := frames
        run := .loop var path opening token.span body :: outer }
    | .branch outer earlier path span, .elifTag path' =>
      let _ ← tryBodyAfter span state.run
      return { state with
        frames := .branch outer (⟨path, span, state.run⟩ :: earlier) path' token.span :: frames
        run := [] }
    | .branch outer earlier path span, .elseTag =>
      let _ ← tryBodyAfter span state.run
      return { state with
        frames := .alternative outer (⟨path, span, state.run⟩ :: earlier) token.span :: frames
        run := [] }
    | .branch outer earlier path span, .ifEnd =>
      let node ← tryChoiceOf (⟨path, span, state.run⟩ :: earlier) none token.span
      return { state with frames := frames, run := node :: outer }
    | .alternative outer branches span, .ifEnd =>
      let node ← tryChoiceOf branches (some ⟨span, state.run⟩) token.span
      return { state with frames := frames, run := node :: outer }
    | frame, _ =>
      let run ← frame.tryAbandon token state.run
      return { state with frames := frames, run := run }

/-- The end of the text takes all open constructs apart. -/
def tryFinish (state : State) (token : Token) : Except Fault State := do
  let run ← state.frames.foldlM (fun run frame => frame.tryAbandon token run) state.run
  return ⟨[], run, 0⟩

/-- Reads one more token; constructs may nest up to `limit` deep. -/
def tryStep (limit : Int) (state : State) (token : Token) : Except Fault State :=
  if token.lexeme = .endOfText then state.tryFinish token
  else if state.flattening then return state.flatten token
  else
    match token.lexeme with
    | .forStart var path =>
      return state.enter limit token fun outer => .loop outer var path token.span
    | .ifStart path =>
      return state.enter limit token fun outer => .branch outer [] path token.span
    | .forEnd | .elifTag _ | .elseTag | .ifEnd => state.tryClose token
    | _ => do return state.push (← tryLeaf token)

end State

/-- The tree of a row of tokens that the end of a text concludes. -/
def tryOfTokens (limit : Int) (tokens : List Token) : Except Fault Node := do
  let state ← tokens.foldlM (State.tryStep limit) .initial
  tryJoin (tokens.getLast?.elim (.empty .start) (·.span)) state.run.reverse

/-- All tokens of a text, read one after the other with checks. -/
def tryTokenize (text : String) : Except Fault (List Token) := do
  let state ← Lookahead.tryOfText text
  let (tokens, _) ← state.tryDrain (state.cursor.rest.length + 2)
  return tokens

/-- The tree of a text, read and assembled with checks. -/
def tryParse (limit : Int) (text : String) : Except Fault Node := do
  tryOfTokens limit (← tryTokenize text)

/-- Whatever is joined, nothing is refused. -/
theorem tryJoin_eq (anchor : Span) (nodes : List Node) :
    tryJoin anchor nodes = .ok (.ofRun anchor nodes) := by
  cases nodes with
  | nil => rfl
  | cons node more =>
    rw [tryJoin, Node.join_eq_ofRun (List.cons_ne_nil node more) anchor]
    rfl

/-- No body is refused. -/
theorem tryBodyAfter_eq (opening : Span) (run : List Node) :
    tryBodyAfter opening run = .ok (bodyAfter opening run) :=
  tryJoin_eq _ _

/-- No conditional is refused. -/
theorem tryChoiceOf_eq (branches : List (Branch (List Node)))
    (otherwise : Option (Alternative (List Node))) (closing : Span) :
    tryChoiceOf branches otherwise closing = .ok (choiceOf branches otherwise closing) := by
  have joined : (branches.reverse.mapM fun branch => do
      let body ← tryBodyAfter branch.span branch.body
      return branch.map fun _ => body) =
      .ok (branches.reverse.map fun branch => branch.map (bodyAfter branch.span)) := by
    apply Fault.mapM_ok
    intro branch _
    rw [tryBodyAfter_eq]
    rfl
  have last : (otherwise.toList.mapM fun alternative => do
      let body ← tryBodyAfter alternative.span alternative.body
      return alternative.map fun _ => body) =
      .ok (otherwise.toList.map fun alternative =>
        alternative.map (bodyAfter alternative.span)) := by
    apply Fault.mapM_ok
    intro alternative _
    rw [tryBodyAfter_eq]
    rfl
  rw [tryChoiceOf, joined, Fault.ok_bind, last, Fault.ok_bind, choiceOf]
  cases otherwise <;> rfl

/-- No construct that falls apart is refused. -/
theorem Frame.tryAbandon_eq (closer : Token) (run : List Node) (frame : Frame) :
    frame.tryAbandon closer run = .ok (frame.abandon closer run) := by
  cases frame with
  | loop outer var path opening => rfl
  | branch outer earlier path span =>
    rw [tryAbandon, tryBodyAfter_eq]
    rfl
  | alternative outer branches span =>
    rw [tryAbandon, tryBodyAfter_eq]
    rfl

namespace State

/-- No closer is refused. -/
theorem tryClose_eq (state : State) (token : Token) :
    state.tryClose token = .ok (state.close token) := by
  obtain ⟨frames, run, surplus⟩ := state
  obtain ⟨lexeme, span⟩ := token
  cases frames with
  | nil => rfl
  | cons frame frames =>
    cases frame <;> cases lexeme <;>
      simp only [tryClose, close, tryBodyAfter_eq, tryChoiceOf_eq, Frame.tryAbandon_eq,
        Fault.ok_bind] <;> rfl

/-- The end of a text is not refused. -/
theorem tryFinish_eq (state : State) (token : Token) :
    state.tryFinish token = .ok (state.finish token) := by
  have each (run : List Node) (frame : Frame) :
      frame.tryAbandon token run = .ok (frame.abandon token run) := frame.tryAbandon_eq token run
  rw [tryFinish, Fault.foldlM_ok each]
  rfl

/-- No token is refused. -/
theorem tryStep_eq (limit : Int) (state : State) (token : Token) :
    state.tryStep limit token = .ok (state.step limit token) := by
  rw [tryStep, step]
  split
  · exact state.tryFinish_eq token
  · split
    · rfl
    · obtain ⟨lexeme, span⟩ := token
      cases lexeme with
      | endOfText => contradiction
      | raw _ | invalid _ | use _ | forStart _ _ | ifStart _ => rfl
      | forEnd | elifTag _ | elseTag | ifEnd => exact state.tryClose_eq _

end State

/-- No row of tokens is refused. -/
theorem tryOfTokens_eq (limit : Int) (tokens : List Token) :
    tryOfTokens limit tokens = .ok (.ofTokens limit tokens) := by
  rw [tryOfTokens, Fault.foldlM_ok (State.tryStep_eq limit), Fault.ok_bind, tryJoin_eq]
  rfl

/-- No text is refused by the readers. -/
theorem tryTokenize_eq (text : String) : tryTokenize text = .ok (tokenize text) := by
  obtain ⟨opened, kept⟩ := Lookahead.tryOfText_eq text
  obtain ⟨read, -⟩ := Lookahead.tryDrain_eq kept (Nat.succ_pos _) fun _ => Nat.lt_succ_self _
  rw [tryTokenize, opened, Fault.ok_bind, read, ← Lookahead.tokens_ofText]
  rfl

/-- No text is refused, however deep constructs may nest. -/
theorem tryParse_eq (limit : Int) (text : String) :
    tryParse limit text = .ok (parse limit text) := by
  rw [tryParse, tryTokenize_eq, Fault.ok_bind, tryOfTokens_eq]
  rfl

end Expression

end TextTemplate
