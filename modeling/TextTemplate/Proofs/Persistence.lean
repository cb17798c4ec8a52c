import TextTemplate.Proofs.HeldNodes
import TextTemplate.Proofs.Subnodes

/-!
# What has been read stays in the tree

A property that an expression has as soon as one of its parts has it is never lost again: closing a
construct puts the nodes it held into a larger expression, and taking it apart hands them on. So
whatever such a property is found on in the course of the assembly, the whole tree has it in the
end.
-/

namespace TextTemplate.Expression

open Text Markup

namespace Node

/-- Whether an expression has the property as soon as one of the expressions it is made of has. -/
structure Spreads (held : Node → Prop) : Prop where
  /-- From the body of a loop. -/
  loop (var : Ident) (path : Path) (opening closing : Span) {body : Node} :
    held body → held (.loop var path opening closing body)
  /-- From the body of a branch. -/
  branch (otherwise : Option (Alternative Node)) (closing : Span) {branches : List (Branch Node)}
    {branch : Branch Node} : branch ∈ branches → held branch.body →
      held (.choice branches otherwise closing)
  /-- From the body of an alternative. -/
  alternative (branches : List (Branch Node)) (closing : Span) {alternative : Alternative Node} :
    held alternative.body → held (.choice branches (some alternative) closing)
  /-- From one of the children of a sequence. -/
  concat {children : List Node} {child : Node} : child ∈ children → held child →
    held (.concat children)

/-- Whether one of the expressions in a row has the property. -/
def Among (held : Node → Prop) (nodes : List Node) : Prop := ∃ node ∈ nodes, held node

/-- A property is found in a row at its first expression or among the others. -/
theorem among_cons (held : Node → Prop) (node : Node) (more : List Node) :
    Among held (node :: more) ↔ held node ∨ Among held more := by
  simp [Among]

/-- A property is found in a row when it is in one of its parts. -/
theorem among_append (held : Node → Prop) (front back : List Node) :
    Among held (front ++ back) ↔ Among held front ∨ Among held back := by
  simp [Among, or_and_right, exists_or]

/-- Turning a row around does not change what is found in it. -/
theorem among_reverse (held : Node → Prop) (nodes : List Node) :
    Among held nodes.reverse ↔ Among held nodes := by
  simp [Among]

namespace Spreads

variable {held : Node → Prop} (spreads : Spreads held)
include spreads

/-- The property spreads from a node to the run it is joined into. -/
theorem ofRun (anchor : Span) {nodes : List Node} (found : Among held nodes) :
    held (.ofRun anchor nodes) := by
  obtain ⟨node, member, has⟩ := found
  match nodes with
  | [] => exact absurd member List.not_mem_nil
  | [single] =>
    have same : node = single := List.mem_singleton.mp member
    rwa [Node.ofRun, ← same]
  | _ :: _ :: _ => exact spreads.concat member has

/-- The property spreads from a node to the body it was read for. -/
theorem bodyAfter (opening : Span) {run : List Node} (found : Among held run) :
    held (bodyAfter opening run) :=
  spreads.ofRun _ ((among_reverse held run).mpr found)

/-- The property spreads from a node to the conditional that one of its branches was read for. -/
theorem choiceOf_branch (branches : List (Branch (List Node)))
    (otherwise : Option (Alternative (List Node))) (closing : Span)
    (found : Among held (branches.flatMap (·.body))) :
    held (choiceOf branches otherwise closing) := by
  obtain ⟨node, member, has⟩ := found
  obtain ⟨branch, known, inside⟩ := List.mem_flatMap.mp member
  have joined : branch.map (Expression.bodyAfter branch.span) ∈
      branches.reverse.map fun branch => branch.map (Expression.bodyAfter branch.span) :=
    List.mem_map_of_mem (List.mem_reverse.mpr known)
  exact spreads.branch _ _ joined (spreads.bodyAfter branch.span ⟨node, inside, has⟩)

/-- The property spreads from a node to the conditional that its alternative was read for. -/
theorem choiceOf_alternative (branches : List (Branch (List Node))) (span closing : Span)
    {run : List Node} (found : Among held run) :
    held (choiceOf branches (some ⟨span, run⟩) closing) :=
  spreads.alternative _ _ (spreads.bodyAfter span found)

end Spreads

/-- An expression is among the expressions inside it. -/
theorem mem_subnodes_self (node : Node) : node ∈ node.subnodes := by
  cases node <;> exact List.mem_cons_self

/-- Having a certain expression inside spreads. -/
theorem spreads_mem_subnodes (sought : Node) : Spreads (sought ∈ ·.subnodes) where
  loop var path opening closing body inside := List.mem_cons_of_mem _ inside
  branch otherwise closing branches branch member inside := by
    rw [subnodes_choice]
    exact List.mem_cons_of_mem _
      (List.mem_append_left _ (List.mem_flatMap.mpr ⟨branch, member, inside⟩))
  alternative branches closing alternative inside := by
    rw [subnodes_choice]
    exact List.mem_cons_of_mem _ (List.mem_append_right _ inside)
  concat member inside := by
    rw [subnodes_concat]
    exact List.mem_cons_of_mem _ (List.mem_flatMap.mpr ⟨_, member, inside⟩)

end Node

namespace State

/-- Whether a node with the property is held in the course of the assembly. -/
def Carries (held : Node → Prop) (state : State) : Prop := Node.Among held state.nodes

variable {held : Node → Prop}

/-- Taking apart the innermost construct loses no node with the property. -/
theorem Carries.abandon {frame : Frame} {frames : List Frame} {run : List Node} {surplus : Nat}
    (found : Carries held ⟨frame :: frames, run, surplus⟩) (closer : Token) :
    Carries held ⟨frames, frame.abandon closer run, surplus⟩ := by
  obtain ⟨node, member, has⟩ := found
  exact ⟨node, mem_nodes_abandon member closer, has⟩

/-- One more node in the innermost construct keeps those with the property. -/
theorem Carries.push {frames : List Frame} {run : List Node} {surplus surplus' : Nat}
    (found : Carries held ⟨frames, run, surplus⟩) (node : Node) :
    Carries held ⟨frames, node :: run, surplus'⟩ := by
  obtain ⟨other, member, has⟩ := found
  exact ⟨other, List.mem_cons_of_mem _ member, has⟩

/-- A property that spreads is kept by every token. -/
theorem Carries.move {limit : Int} {state state' : State} {token : Token} {notices : List Notice}
    (found : state.Carries held) (spreads : Node.Spreads held)
    (moved : Move limit state token state' notices) : state'.Carries held := by
  -- What a closed construct held is inside the node it leaves; all other nodes stay as they are.
  cases moved with
  | flattened frames run surplus => exact found.push _
  | leaf frames run stands => exact found.push _
  | tooDeep frames run opens deep => exact found.push _
  | stray run closes => exact found.push _
  | abandoned frame frames run closes refused => exact found.abandon token
  | opened frames run opens room => simpa [Carries, nodes, nodes_frameOf opens] using found
  | closedLoop frames run outer var path opening span =>
    have closed : Node.Among held run →
        held (.loop var path opening span (bodyAfter opening run)) := fun inside =>
      spreads.loop var path opening span (spreads.bodyAfter opening inside)
    simp only [Carries, nodes, Frame.nodes, List.flatMap_cons, Node.among_append,
      Node.among_cons] at found ⊢
    tauto
  | furtherBranch frames run outer earlier path path' span span' =>
    simp only [Carries, nodes, Frame.nodes, List.flatMap_cons, Node.among_append] at found ⊢
    tauto
  | lastBranch frames run outer earlier path span span' =>
    simp only [Carries, nodes, Frame.nodes, List.flatMap_cons, Node.among_append] at found ⊢
    tauto
  | closedBranch frames run outer earlier path span span' =>
    have closed : Node.Among held (run ++ earlier.flatMap (·.body)) →
        held (choiceOf (⟨path, span, run⟩ :: earlier) none span') :=
      spreads.choiceOf_branch (⟨path, span, run⟩ :: earlier) none span'
    simp only [Carries, nodes, Frame.nodes, List.flatMap_cons, Node.among_append,
      Node.among_cons] at found closed ⊢
    tauto
  | closedAlternative frames run outer branches span span' =>
    have early : Node.Among held (branches.flatMap (·.body)) →
        held (choiceOf branches (some ⟨span, run⟩) span') :=
      spreads.choiceOf_branch branches (some ⟨span, run⟩) span'
    have late : Node.Among held run →
        held (choiceOf branches (some ⟨span, run⟩) span') :=
      spreads.choiceOf_alternative branches span span'
    simp only [Carries, nodes, Frame.nodes, List.flatMap_cons, Node.among_append,
      Node.among_cons] at found ⊢
    tauto

/-- A property that spreads is kept, whatever is read. -/
theorem Carries.foldl {limit : Int} {state : State} (found : state.Carries held)
    (spreads : Node.Spreads held) {read : List Token}
    (inside : ∀ token ∈ read, token.lexeme ≠ .endOfText) :
    (read.foldl (step limit) state).Carries held :=
  foldl_keeps (fun found moved => found.move spreads moved) found inside

/-- The end of the text keeps the nodes with the property. -/
theorem Carries.finish {state : State} (found : state.Carries held) (closer : Token) :
    Node.Among held (state.finish closer).run := by
  obtain ⟨frames, run, surplus⟩ := state
  induction frames generalizing run with
  | nil => simpa [Carries, nodes, State.finish] using found
  | cons frame frames ih => exact ih _ (found.abandon closer)

/-- Where a construct is open at the end of the text, that end is left as an unexpected token. -/
theorem among_finish_of_open (held : Node → Prop) {closer : Token}
    (unexpected : held (.unexpected closer)) {state : State} (opened : state.frames ≠ []) :
    Node.Among held (state.finish closer).run := by
  obtain ⟨frames, run, surplus⟩ := state
  match frames with
  | [] => exact absurd rfl opened
  | frame :: frames =>
    have left : Carries held ⟨frames, frame.abandon closer run, surplus⟩ :=
      ⟨.unexpected closer, closer_mem_nodes_abandon frame frames run surplus closer, unexpected⟩
    exact left.finish closer

end State

/-- What the tokens at the front of a text leave behind is found in its tree: a property that
spreads reaches from any node that is held there to the whole tree. -/
theorem parse_of_carries {held : Node → Prop} (spreads : Node.Spreads held) {limit : Int}
    {text : String} {front back : List Token} (split : contentTokens text = front ++ back)
    (found : State.Carries held (front.foldl (State.step limit) .initial)) :
    held (parse limit text) := by
  obtain ⟨stop, -, tree, -⟩ := parse_eq_finish limit text
  have inside : ∀ token ∈ back, token.lexeme ≠ .endOfText := by
    intro token member
    have proper : token ∈ contentTokens text := by
      rw [split]
      exact List.mem_append_right _ member
    exact (proper_of_mem_contentTokens proper).not_end
  have kept : (assembled limit text).Carries held := by
    rw [assembled, split, List.foldl_append]
    exact found.foldl spreads inside
  have left := kept.finish ⟨.endOfText, .empty stop⟩
  rw [tree]
  exact spreads.ofRun _ ((Node.among_reverse held _).mpr left)

end TextTemplate.Expression
