import TextTemplate.Expression.Assembly
import TextTemplate.Expression.Shape
import TextTemplate.Proofs.Relocation

/-!
# Trees moved to other places

The assembly of tokens never looks at their places: with all places changed, the same tree arises
with its places changed. The one thing asked for is that a change of spans respects where they end,
because an empty body sits behind its opening tag. The shape of a tree does not tell its places.
-/

namespace TextTemplate.Expression

open Text Markup

variable (f : Span → Span)

namespace Node

mutual

/-- The expression with all of its spans changed. -/
def mapSpans : Node → Node
  | .raw text span => .raw text (f span)
  | .invalid text span => .invalid text (f span)
  | .use path span => .use (path.mapSpan f) (f span)
  | .unexpected token => .unexpected (token.mapSpans f)
  | .loop var path opening closing body =>
    .loop (var.mapSpan f) (path.mapSpan f) (f opening) (f closing) body.mapSpans
  | .choice branches otherwise closing =>
    .choice (branchesMapSpans branches) (alternativeMapSpans otherwise) (f closing)
  | .concat children => .concat (allMapSpans children)

/-- The branches with all of their spans changed. -/
def branchesMapSpans : List (Branch Node) → List (Branch Node)
  | [] => []
  | ⟨path, span, body⟩ :: more =>
    ⟨path.mapSpan f, f span, body.mapSpans⟩ :: branchesMapSpans more

/-- The alternative with all of its spans changed. -/
def alternativeMapSpans : Option (Alternative Node) → Option (Alternative Node)
  | none => none
  | some ⟨span, body⟩ => some ⟨f span, body.mapSpans⟩

/-- The expressions with all of their spans changed. -/
def allMapSpans : List Node → List Node
  | [] => []
  | node :: more => node.mapSpans :: allMapSpans more

end

end Node

/-- The branch with its spans changed, and its body changed in its own way. -/
def Branch.mapSpans {β γ : Type} (f : Span → Span) (g : β → γ) (branch : Branch β) : Branch γ :=
  ⟨branch.path.mapSpan f, f branch.span, g branch.body⟩

/-- The alternative with its span changed, and its body changed in its own way. -/
def Alternative.mapSpans {β γ : Type} (f : Span → Span) (g : β → γ)
    (alternative : Alternative β) : Alternative γ :=
  ⟨f alternative.span, g alternative.body⟩

/-- The construct with all spans changed of what it holds. -/
def Frame.mapSpans : Frame → Frame
  | .loop outer var path opening =>
    .loop (outer.map (·.mapSpans f)) (var.mapSpan f) (path.mapSpan f) (f opening)
  | .branch outer earlier path span =>
    .branch (outer.map (·.mapSpans f)) (earlier.map (.mapSpans f (·.map (·.mapSpans f))))
      (path.mapSpan f) (f span)
  | .alternative outer branches span =>
    .alternative (outer.map (·.mapSpans f)) (branches.map (.mapSpans f (·.map (·.mapSpans f))))
      (f span)

/-- The state with all spans changed of what it holds. -/
def State.mapSpans (state : State) : State :=
  ⟨state.frames.map (·.mapSpans f), state.run.map (·.mapSpans f), state.surplus⟩

namespace Node

/-- Expressions in a row are changed one by one. -/
theorem allMapSpans_eq_map (nodes : List Node) :
    allMapSpans f nodes = nodes.map (·.mapSpans f) := by
  induction nodes with
  | nil => rfl
  | cons node more ih => exact congrArg (List.cons _) ih

/-- Branches are changed one by one. -/
theorem branchesMapSpans_eq_map (branches : List (Branch Node)) :
    branchesMapSpans f branches = branches.map (.mapSpans f (·.mapSpans f)) := by
  induction branches with
  | nil => rfl
  | cons branch more ih => exact congrArg (List.cons _) ih

/-- An alternative is changed where there is one. -/
theorem alternativeMapSpans_eq_map (otherwise : Option (Alternative Node)) :
    alternativeMapSpans f otherwise = otherwise.map (.mapSpans f (·.mapSpans f)) := by
  cases otherwise <;> rfl

/-- An unexpected token is changed as a token. -/
@[simp] theorem mapSpans_unexpected (token : Token) :
    (unexpected token).mapSpans f = .unexpected (token.mapSpans f) :=
  rfl

/-- A loop is changed in its head, its tags and its body. -/
@[simp] theorem mapSpans_loop (var : Ident) (path : Path) (opening closing : Span) (body : Node) :
    (loop var path opening closing body).mapSpans f =
      .loop (var.mapSpan f) (path.mapSpan f) (f opening) (f closing) (body.mapSpans f) :=
  rfl

/-- A conditional is changed in each of its parts. -/
@[simp] theorem mapSpans_choice (branches : List (Branch Node))
    (otherwise : Option (Alternative Node)) (closing : Span) :
    (choice branches otherwise closing).mapSpans f =
      .choice (branches.map (.mapSpans f (·.mapSpans f)))
        (otherwise.map (.mapSpans f (·.mapSpans f))) (f closing) := by
  rw [← branchesMapSpans_eq_map, ← alternativeMapSpans_eq_map]
  rfl

/-- A sequence is changed child by child. -/
@[simp] theorem mapSpans_concat (children : List Node) :
    (concat children).mapSpans f = .concat (children.map (·.mapSpans f)) :=
  congrArg concat (allMapSpans_eq_map f children)

/-- The shape of a tree does not tell its places. -/
theorem shape_mapSpans (node : Node) : (node.mapSpans f).shape = node.shape := by
  induction node using inductionOn with
  | raw text span => rfl
  | invalid text span => rfl
  | use path span => rfl
  | unexpected token =>
    simp [shape, Token.kind, Token.canonical, Token.mapSpans]
  | loop var path opening closing body ih => simp [shape, ih, Ident.mapSpan]
  | choice branches otherwise closing bodies last =>
    have conditions : (branches.map (Branch.mapSpans f (mapSpans f))).map (·.path.parts) =
        branches.map (·.path.parts) := by
      rw [List.map_map]
      rfl
    have parts : (branches.map (Branch.mapSpans f (mapSpans f))).map (·.body.shape) =
        branches.map (·.body.shape) := by
      rw [List.map_map]
      exact List.map_congr_left bodies
    simp only [mapSpans_choice, shape, branchShapes_eq_map, conditions, parts]
    cases otherwise with
    | none => rfl
    | some alternative =>
      have same := last alternative rfl
      simp [alternativeShape, Alternative.mapSpans, same]
  | concat children ih =>
    simp only [mapSpans_concat, shape, shapes_eq_map, List.map_map]
    exact congrArg _ (List.map_congr_left ih)

/-- A run makes the same expression at any place. -/
theorem mapSpans_ofRun (anchor : Span) (nodes : List Node) :
    (ofRun anchor nodes).mapSpans f = ofRun (f anchor) (nodes.map (·.mapSpans f)) := by
  match nodes with
  | [] => rfl
  | [node] => rfl
  | first :: second :: more => exact mapSpans_concat f (first :: second :: more)

end Node

variable {f}

/-- A body makes the same expression at any place. -/
theorem mapSpans_bodyAfter (ends : ∀ span, f (.empty span.stop) = .empty (f span).stop)
    (opening : Span) (run : List Node) :
    (bodyAfter opening run).mapSpans f = bodyAfter (f opening) (run.map (·.mapSpans f)) := by
  rw [bodyAfter, Node.mapSpans_ofRun, ends, List.map_reverse]
  rfl

/-- A conditional is made alike at any place. -/
theorem mapSpans_choiceOf (ends : ∀ span, f (.empty span.stop) = .empty (f span).stop)
    (branches : List (Branch (List Node))) (otherwise : Option (Alternative (List Node)))
    (closing : Span) :
    (choiceOf branches otherwise closing).mapSpans f =
      choiceOf (branches.map (.mapSpans f (·.map (·.mapSpans f))))
        (otherwise.map (.mapSpans f (·.map (·.mapSpans f)))) (f closing) := by
  have body (opening : Span) (run : List Node) := mapSpans_bodyAfter ends opening run
  simp only [choiceOf, Node.mapSpans_choice, List.map_map, Option.map_map, ← List.map_reverse]
  congr 1
  · refine List.map_congr_left fun branch _ => ?_
    simp [Branch.mapSpans, Branch.map, body]
  · cases otherwise <;> simp [Alternative.mapSpans, Alternative.map, body]

/-- The tag of a branch is the same tag at any place. -/
theorem mapSpans_tagAfter (earlier : List (Branch (List Node))) (path : Path) (span : Span) :
    (tagAfter earlier path span).mapSpans f =
      tagAfter (earlier.map (.mapSpans f (·.map (·.mapSpans f)))) (path.mapSpan f) (f span) := by
  cases earlier <;> rfl

/-- Branches are taken apart alike at any place. -/
theorem mapSpans_scattered (outer : List Node) (branches : List (Branch (List Node))) :
    (scattered outer branches).map (·.mapSpans f) =
      scattered (outer.map (·.mapSpans f))
        (branches.map (.mapSpans f (·.map (·.mapSpans f)))) := by
  induction branches with
  | nil => rfl
  | cons branch earlier ih =>
    obtain ⟨path, span, body⟩ := branch
    simp [scattered, ih, mapSpans_tagAfter, Branch.mapSpans]

/-- A construct is taken apart alike at any place. -/
theorem Frame.mapSpans_abandon (closer : Token) (run : List Node) (frame : Frame) :
    (frame.abandon closer run).map (·.mapSpans f) =
      (frame.mapSpans f).abandon (closer.mapSpans f) (run.map (·.mapSpans f)) := by
  cases frame with
  | loop outer var path opening =>
    simp [abandon, mapSpans, Token.mapSpans, Lexeme.mapSpans]
  | branch outer earlier path span =>
    simp [abandon, mapSpans, mapSpans_tagAfter, mapSpans_scattered]
  | alternative outer branches span =>
    simp [abandon, mapSpans, mapSpans_scattered, Token.mapSpans, Lexeme.mapSpans]

namespace State

/-- A token is flattened alike at any place. -/
theorem mapSpans_flatten (state : State) (token : Token) :
    (state.flatten token).mapSpans f = (state.mapSpans f).flatten (token.mapSpans f) := by
  obtain ⟨lexeme, span⟩ := token
  cases lexeme <;> rfl

/-- A construct is opened alike at any place. -/
theorem mapSpans_enter (limit : Int) (state : State) (token : Token)
    {frame frame' : List Node → Frame}
    (same : ∀ outer, (frame outer).mapSpans f = frame' (outer.map (·.mapSpans f))) :
    (state.enter limit token frame).mapSpans f =
      (state.mapSpans f).enter limit (token.mapSpans f) frame' := by
  have deep : (state.mapSpans f).tooDeep limit = state.tooDeep limit := by
    simp [tooDeep, mapSpans]
  rw [enter, enter, deep]
  split
  · exact mapSpans_flatten state token
  · simp [mapSpans, same]

/-- A closer does the same at any place. -/
theorem mapSpans_close (ends : ∀ span, f (.empty span.stop) = .empty (f span).stop)
    (state : State) (token : Token) :
    (state.close token).mapSpans f = (state.mapSpans f).close (token.mapSpans f) := by
  obtain ⟨frames, run, surplus⟩ := state
  obtain ⟨lexeme, span⟩ := token
  have abandoned (frame : Frame) (frames : List Frame) (closer : Token) :
      mapSpans f ⟨frames, frame.abandon closer run, surplus⟩ =
        ⟨frames.map (·.mapSpans f),
          (frame.mapSpans f).abandon (closer.mapSpans f) (run.map (·.mapSpans f)), surplus⟩ := by
    rw [mapSpans, Frame.mapSpans_abandon]
  cases frames with
  | nil => rfl
  | cons frame frames =>
    cases frame with
    | loop outer var path opening =>
      cases lexeme with
      | forEnd => simp [close, mapSpans, Frame.mapSpans, Token.mapSpans, Lexeme.mapSpans,
          mapSpans_bodyAfter ends]
      | endOfText | raw _ | invalid _ | use _ | forStart _ _ | ifStart _ | elifTag _ | elseTag
      | ifEnd => exact abandoned _ _ _
    | branch outer earlier path opening =>
      cases lexeme with
      | elifTag _ => rfl
      | elseTag => rfl
      | ifEnd => simp [close, mapSpans, Frame.mapSpans, Branch.mapSpans, Token.mapSpans,
          Lexeme.mapSpans, mapSpans_choiceOf ends]
      | endOfText | raw _ | invalid _ | use _ | forStart _ _ | forEnd | ifStart _ =>
        exact abandoned _ _ _
    | alternative outer branches opening =>
      cases lexeme with
      | ifEnd => simp [close, mapSpans, Frame.mapSpans, Alternative.mapSpans, Token.mapSpans,
          Lexeme.mapSpans, mapSpans_choiceOf ends]
      | endOfText | raw _ | invalid _ | use _ | forStart _ _ | forEnd | ifStart _ | elifTag _
      | elseTag => exact abandoned _ _ _

/-- The end of the text does the same at any place. -/
theorem mapSpans_finish (state : State) (token : Token) :
    (state.finish token).mapSpans f = (state.mapSpans f).finish (token.mapSpans f) := by
  obtain ⟨frames, run, surplus⟩ := state
  simp only [finish, mapSpans]
  induction frames generalizing run with
  | nil => rfl
  | cons frame frames ih =>
    rw [List.foldl_cons, ih, List.map_cons, List.foldl_cons, Frame.mapSpans_abandon]

/-- A token does the same at any place. -/
theorem mapSpans_step (ends : ∀ span, f (.empty span.stop) = .empty (f span).stop) (limit : Int)
    (state : State) (token : Token) :
    (state.step limit token).mapSpans f = (state.mapSpans f).step limit (token.mapSpans f) := by
  have ending : (token.mapSpans f).lexeme = .endOfText ↔ token.lexeme = .endOfText :=
    token.lexeme.mapSpans_eq_endOfText f
  by_cases ended : token.lexeme = .endOfText
  · rw [step, step, if_pos ended, if_pos (ending.mpr ended), mapSpans_finish]
  · rw [step, step, if_neg ended, if_neg (fun h => ended (ending.mp h))]
    by_cases flat : state.flattening
    · rw [if_pos flat, if_pos (show (state.mapSpans f).flattening = true from flat),
        mapSpans_flatten]
    · rw [if_neg flat, if_neg (show ¬(state.mapSpans f).flattening = true from flat)]
      obtain ⟨lexeme, span⟩ := token
      cases lexeme with
      | endOfText => contradiction
      | raw _ | invalid _ | use _ => rfl
      | forStart _ _ | ifStart _ => exact mapSpans_enter limit state _ fun _ => rfl
      | forEnd | elifTag _ | elseTag | ifEnd => exact mapSpans_close ends state _

/-- Tokens in a row do the same at any place. -/
theorem mapSpans_foldl (ends : ∀ span, f (.empty span.stop) = .empty (f span).stop)
    (limit : Int) (state : State) (tokens : List Token) :
    (tokens.foldl (step limit) state).mapSpans f =
      (tokens.map (·.mapSpans f)).foldl (step limit) (state.mapSpans f) := by
  induction tokens generalizing state with
  | nil => rfl
  | cons token more ih => rw [List.foldl_cons, ih, mapSpans_step ends, List.map_cons,
      List.foldl_cons]

end State

/-- Tokens make the same tree at any place. -/
theorem Node.mapSpans_ofTokens (ends : ∀ span, f (.empty span.stop) = .empty (f span).stop)
    (limit : Int) {tokens : List Token} (nonempty : tokens ≠ []) :
    (ofTokens limit tokens).mapSpans f = ofTokens limit (tokens.map (·.mapSpans f)) := by
  have run := congrArg State.run (State.mapSpans_foldl ends limit .initial tokens)
  obtain ⟨last, found⟩ := Option.ne_none_iff_exists'.mp
    (fun none => nonempty (List.getLast?_eq_none_iff.mp none))
  rw [ofTokens, ofTokens, mapSpans_ofRun, List.map_reverse, List.getLast?_map, found]
  exact congrArg (fun run => ofRun (f last.span) run.reverse) run

/-- Tokens that say the same make trees of the same shape, wherever they stand. -/
theorem shape_ofTokens (limit : Int) {tokens tokens' : List Token}
    (same : tokens.map (·.lexeme.bare) = tokens'.map (·.lexeme.bare)) (nonempty : tokens ≠ []) :
    (Node.ofTokens limit tokens).shape = (Node.ofTokens limit tokens').shape := by
  have nonempty' : tokens' ≠ [] := by
    rintro rfl
    exact nonempty (List.map_eq_nil_iff.mp same)
  have erased (tokens : List Token) : tokens.map (·.mapSpans fun _ => .empty .start) =
      (tokens.map (·.lexeme.bare)).map fun lexeme => ⟨lexeme, .empty .start⟩ := by
    rw [List.map_map]
    rfl
  rw [← Node.shape_mapSpans (fun _ => .empty .start) (Node.ofTokens limit tokens),
    ← Node.shape_mapSpans (fun _ => .empty .start) (Node.ofTokens limit tokens'),
    Node.mapSpans_ofTokens (fun _ => rfl) limit nonempty,
    Node.mapSpans_ofTokens (fun _ => rfl) limit nonempty', erased, erased, same]

end TextTemplate.Expression
