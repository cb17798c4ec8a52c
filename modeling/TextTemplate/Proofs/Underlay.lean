import TextTemplate.Proofs.AssemblySteps

/-!
# Nodes underneath an assembly

What was read before, outside of all constructs, is never looked at again. With further nodes
underneath everything else, every token does what it does without them, and the nodes stay where
they are. The bound on nesting counts open constructs only, so it does not see them either.
-/

namespace TextTemplate.Expression

open Text Markup

/-- Branches are taken apart on top of whatever lies underneath. -/
theorem scattered_append (outer base : List Node) (branches : List (Branch (List Node))) :
    scattered (outer ++ base) branches = scattered outer branches ++ base := by
  induction branches with
  | nil => rfl
  | cons branch earlier ih => rw [scattered, scattered, ih, List.append_assoc, List.cons_append]

namespace Frame

/-- The construct with further nodes underneath those it stands on. -/
def atop (base : List Node) : Frame → Frame
  | .loop outer var path opening => .loop (outer ++ base) var path opening
  | .branch outer earlier path span => .branch (outer ++ base) earlier path span
  | .alternative outer branches span => .alternative (outer ++ base) branches span

/-- A construct is taken apart on top of whatever lies underneath. -/
theorem abandon_atop (base : List Node) (closer : Token) (run : List Node) (frame : Frame) :
    (frame.atop base).abandon closer run = frame.abandon closer run ++ base := by
  cases frame with
  | loop outer var path opening => simp [atop, abandon]
  | branch outer earlier path span => simp [atop, abandon, scattered_append]
  | alternative outer branches span => simp [atop, abandon, scattered_append]

end Frame

namespace State

/-- The part of `base` that lies right underneath a row of nodes: all of it where no construct is
open, and nothing where the outermost construct lies in between. -/
def floor (base : List Node) (frames : List Frame) : List Node :=
  if frames.isEmpty then base else []

/-- The open constructs, with further nodes underneath the outermost one. -/
def framesAtop (base : List Node) : List Frame → List Frame
  | [] => []
  | frame :: frames => frame.atop (floor base frames) :: framesAtop base frames

/-- The state with further nodes underneath everything else. -/
def atop (base : List Node) (state : State) : State :=
  ⟨framesAtop base state.frames, state.run ++ floor base state.frames, state.surplus⟩

variable (base : List Node)

/-- As many constructs are open as without the nodes underneath. -/
theorem length_framesAtop (frames : List Frame) :
    (framesAtop base frames).length = frames.length := by
  induction frames with
  | nil => rfl
  | cons frame frames ih => rw [framesAtop, List.length_cons, List.length_cons, ih]

/-- A node is put on top. -/
theorem push_atop (state : State) (node : Node) :
    (state.atop base).push node = (state.push node).atop base :=
  rfl

/-- A token is flattened on top. -/
theorem flatten_atop (state : State) (token : Token) :
    (state.atop base).flatten token = (state.flatten token).atop base :=
  rfl

/-- A construct is opened on top. -/
theorem enter_atop (limit : Int) (state : State) (token : Token) {frame : List Node → Frame}
    (above : ∀ outer floor, (frame outer).atop floor = frame (outer ++ floor)) :
    (state.atop base).enter limit token frame = (state.enter limit token frame).atop base := by
  have deep : (state.atop base).tooDeep limit = state.tooDeep limit := by
    simp only [tooDeep, atop, length_framesAtop]
  rw [enter, enter, deep]
  split
  · exact flatten_atop base state token
  · simp [atop, framesAtop, floor, above]

/-- Underneath an open construct, the nodes lie under what that construct stands on. -/
theorem atop_cons (frame : Frame) (frames : List Frame) (run : List Node) (surplus : Nat) :
    atop base ⟨frame :: frames, run, surplus⟩ =
      ⟨frame.atop (floor base frames) :: framesAtop base frames, run, surplus⟩ := by
  have inside : run ++ floor base (frame :: frames) = run := List.append_nil run
  rw [atop, framesAtop, inside]

/-- A closer does the same on top. -/
theorem close_atop (state : State) (token : Token) :
    (state.atop base).close token = (state.close token).atop base := by
  obtain ⟨frames, run, surplus⟩ := state
  obtain ⟨lexeme, span⟩ := token
  cases frames with
  | nil => rfl
  | cons frame frames =>
    have abandoned (token : Token) : atop base ⟨frames, frame.abandon token run, surplus⟩ =
        ⟨framesAtop base frames, (frame.atop (floor base frames)).abandon token run, surplus⟩ := by
      rw [atop, Frame.abandon_atop]
    rw [atop_cons]
    cases frame with
    | loop outer var path opening =>
      cases lexeme with
      | forEnd => rfl
      | endOfText | raw _ | invalid _ | use _ | forStart _ _ | ifStart _ | elifTag _ | elseTag
      | ifEnd => exact (abandoned _).symm
    | branch outer earlier path opening =>
      cases lexeme with
      | elifTag _ | elseTag | ifEnd => rfl
      | endOfText | raw _ | invalid _ | use _ | forStart _ _ | forEnd | ifStart _ =>
        exact (abandoned _).symm
    | alternative outer branches opening =>
      cases lexeme with
      | ifEnd => rfl
      | endOfText | raw _ | invalid _ | use _ | forStart _ _ | forEnd | ifStart _ | elifTag _
      | elseTag => exact (abandoned _).symm

/-- The end of the text takes apart the same constructs on top. -/
theorem finish_atop (state : State) (token : Token) :
    (state.atop base).finish token = (state.finish token).atop base := by
  obtain ⟨frames, run, surplus⟩ := state
  induction frames generalizing run with
  | nil => rfl
  | cons frame frames ih =>
    have apart := ih (frame.abandon token run)
    rw [atop, ← Frame.abandon_atop] at apart
    rw [atop_cons]
    exact apart

/-- A token does the same on top. -/
theorem step_atop (limit : Int) (state : State) (token : Token) :
    (state.atop base).step limit token = (state.step limit token).atop base := by
  by_cases ended : token.lexeme = .endOfText
  · rw [step, step, if_pos ended, if_pos ended, finish_atop]
  · rw [step, step, if_neg ended, if_neg ended]
    by_cases flat : state.flattening
    · rw [if_pos flat, if_pos (show (state.atop base).flattening = true from flat), flatten_atop]
    · rw [if_neg flat, if_neg (show ¬(state.atop base).flattening = true from flat)]
      obtain ⟨lexeme, span⟩ := token
      cases lexeme with
      | endOfText => contradiction
      | raw _ | invalid _ | use _ => exact push_atop base state _
      | forStart _ _ | ifStart _ => exact enter_atop base limit state _ fun _ _ => rfl
      | forEnd | elifTag _ | elseTag | ifEnd => exact close_atop base state _

/-- Tokens in a row do the same on top. -/
theorem foldl_step_atop (limit : Int) (state : State) (tokens : List Token) :
    tokens.foldl (step limit) (state.atop base) =
      (tokens.foldl (step limit) state).atop base := by
  induction tokens generalizing state with
  | nil => rfl
  | cons token more ih => rw [List.foldl_cons, List.foldl_cons, step_atop, ih]

end State

end TextTemplate.Expression
