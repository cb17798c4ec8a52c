import Mathlib.Tactic.Tauto
import TextTemplate.Proofs.AssemblySteps

/-!
# The nodes held while a template is assembled

Every construct that is open holds the nodes read before it and those of its finished branches. A
construct that is taken apart gives up exactly these, and its tags as unexpected tokens.
-/

namespace TextTemplate.Expression

open Text Markup

/-- The nodes that a construct holds while it is open. -/
def Frame.nodes : Frame → List Node
  | .loop outer _ _ _ => outer
  | .branch outer earlier _ _ => outer ++ earlier.flatMap (·.body)
  | .alternative outer branches _ => outer ++ branches.flatMap (·.body)

/-- The nodes held in the course of the assembly, in any order. -/
def State.nodes (state : State) : List Node := state.run ++ state.frames.flatMap Frame.nodes

namespace State

/-- The frame that an opening tag puts up holds the nodes before it. -/
theorem nodes_frameOf {token : Token} {frame : List Node → Frame}
    (opens : frameOf? token = some frame) (outer : List Node) : (frame outer).nodes = outer := by
  obtain ⟨var, path, span, rfl, rfl⟩ | ⟨path, span, rfl, rfl⟩ := opening_cases opens
  · rfl
  · exact List.append_nil outer

/-- Branches taken apart keep the nodes before them and their own. -/
theorem mem_scattered {node : Node} {outer : List Node} {branches : List (Branch (List Node))}
    (member : node ∈ outer ++ branches.flatMap (·.body)) : node ∈ scattered outer branches := by
  induction branches with
  | nil => simpa [scattered] using member
  | cons branch earlier ih =>
    simp only [List.flatMap_cons, List.mem_append] at member ih
    simp only [scattered, List.mem_append, List.mem_cons]
    tauto

/-- A construct taken apart keeps the nodes it holds and those read in it. -/
theorem mem_abandon {node : Node} (closer : Token) {run : List Node} {frame : Frame}
    (member : node ∈ run ++ frame.nodes) : node ∈ frame.abandon closer run := by
  rcases List.mem_append.mp member with inside | held
  · cases frame <;> simp [Frame.abandon, inside]
  · cases frame with
    | loop outer var path opening =>
      have outside : node ∈ outer := held
      simp [Frame.abandon, outside]
    | branch outer earlier path span =>
      have kept := mem_scattered held
      simp [Frame.abandon, kept]
    | alternative outer branches span =>
      have kept := mem_scattered held
      simp [Frame.abandon, kept]

/-- Taking apart the innermost construct keeps all nodes that are held. -/
theorem mem_nodes_abandon {node : Node} {frame : Frame} {frames : List Frame} {run : List Node}
    {surplus : Nat} (member : node ∈ nodes ⟨frame :: frames, run, surplus⟩) (closer : Token) :
    node ∈ nodes ⟨frames, frame.abandon closer run, surplus⟩ := by
  rw [nodes, List.flatMap_cons, ← List.append_assoc] at member
  rcases List.mem_append.mp member with own | below
  · exact List.mem_append_left _ (mem_abandon closer own)
  · exact List.mem_append_right _ below

/-- Taking apart the innermost construct leaves what it met as an unexpected token. -/
theorem closer_mem_nodes_abandon (frame : Frame) (frames : List Frame) (run : List Node)
    (surplus : Nat) (closer : Token) :
    .unexpected closer ∈ nodes ⟨frames, frame.abandon closer run, surplus⟩ := by
  cases frame <;> simp [nodes, Frame.abandon]

/-- Branches taken apart give up the nodes before them, their own, and their tags. -/
theorem of_mem_scattered {node : Node} {outer : List Node} {branches : List (Branch (List Node))}
    (member : node ∈ scattered outer branches) :
    node ∈ outer ++ branches.flatMap (·.body) ∨ ∃ token, node = .unexpected token := by
  induction branches with
  | nil => exact .inl (by simpa [scattered] using member)
  | cons branch earlier ih =>
    simp only [scattered, List.mem_append, List.mem_cons] at member
    simp only [List.flatMap_cons, List.mem_append] at ih ⊢
    rcases member with own | rfl | before
    · exact .inl (.inr (.inl own))
    · exact .inr ⟨_, rfl⟩
    · have kept := ih before
      tauto

/-- A construct taken apart gives up the nodes it holds, those read in it, and its tags. -/
theorem of_mem_abandon {node : Node} {closer : Token} {run : List Node} {frame : Frame}
    (member : node ∈ frame.abandon closer run) :
    node ∈ run ++ frame.nodes ∨ ∃ token, node = .unexpected token := by
  cases frame with
  | loop outer var path opening =>
    simp only [Frame.abandon, List.mem_cons, List.mem_append] at member
    rcases member with rfl | inside | rfl | before
    · exact .inr ⟨_, rfl⟩
    · exact .inl (List.mem_append_left _ inside)
    · exact .inr ⟨_, rfl⟩
    · exact .inl (List.mem_append_right _ before)
  | branch outer earlier path span =>
    simp only [Frame.abandon, List.mem_cons, List.mem_append] at member
    rcases member with rfl | inside | rfl | before
    · exact .inr ⟨_, rfl⟩
    · exact .inl (List.mem_append_left _ inside)
    · exact .inr ⟨_, rfl⟩
    · exact (of_mem_scattered before).imp_left (List.mem_append_right _)
  | alternative outer branches span =>
    simp only [Frame.abandon, List.mem_cons, List.mem_append] at member
    rcases member with rfl | inside | rfl | before
    · exact .inr ⟨_, rfl⟩
    · exact .inl (List.mem_append_left _ inside)
    · exact .inr ⟨_, rfl⟩
    · exact (of_mem_scattered before).imp_left (List.mem_append_right _)

end State

end TextTemplate.Expression
