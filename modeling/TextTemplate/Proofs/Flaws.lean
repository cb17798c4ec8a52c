import TextTemplate.Proofs.Persistence

/-!
# Unexpected tokens stay in the tree

A notice is left exactly where a token could not be placed, and such a token stands in the tree as
an unexpected one. Nothing that happens later takes it away again: a construct that is closed or
taken apart keeps all nodes it held.
-/

namespace TextTemplate.Expression

open Text Markup

/-- An unexpected token inside an expression is inside all that is made of it. -/
theorem Node.spreads_flawed : Node.Spreads Node.Flawed where
  loop _ _ _ _ _ flawed := (Node.flawed_loop ..).mpr flawed
  branch _ _ _ branch member flawed :=
    (Node.flawed_choice ..).mpr (.inl ⟨branch, member, flawed⟩)
  alternative _ _ alternative flawed :=
    (Node.flawed_choice ..).mpr (.inr ⟨alternative, rfl, flawed⟩)
  concat member flawed := (Node.flawed_concat _).mpr ⟨_, member, flawed⟩

/-- Whether an unexpected token is held in the course of the assembly. -/
def State.Flawed (state : State) : Prop := Node.AnyFlawed state.nodes

namespace State

/-- Where a notice is left, an unexpected token is left as well. -/
theorem flawed_of_notice {limit : Int} {state state' : State} {token : Token}
    {notices : List Notice} (moved : Move limit state token state' notices)
    (noticed : notices ≠ []) : state'.Flawed := by
  cases moved with
  | flattened | leaf | opened | closedLoop | furtherBranch | lastBranch | closedBranch
  | closedAlternative => exact absurd rfl noticed
  | tooDeep frames run opens deep => exact ⟨.unexpected token, by simp [nodes], by simp⟩
  | stray run closes => exact ⟨.unexpected token, by simp [nodes], by simp⟩
  | abandoned frame frames run closes refused =>
    exact ⟨.unexpected token, closer_mem_nodes_abandon frame frames run 0 token, by simp⟩

/-- Where a construct is open at the end of the text, an unexpected token is left. -/
theorem flawed_finish_of_open {state : State} (opened : state.frames ≠ []) (closer : Token) :
    Node.AnyFlawed (state.finish closer).run :=
  among_finish_of_open Node.Flawed (by simp) opened

end State

end TextTemplate.Expression
