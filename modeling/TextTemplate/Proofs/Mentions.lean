import TextTemplate.Evaluation.Render
import TextTemplate.Evaluation.Residual
import TextTemplate.Proofs.ContextExtension

/-!
# Only the paths mentioned matter

The text of an expression hangs on what the paths lead to that are mentioned in it, and so does what
is left of it. Two contexts that lead alike along all of them give the same text and leave the same,
whatever else they bind. Loops bind the same names on top of both, which keeps them alike.
-/

namespace TextTemplate.Expression.Node

open Data Evaluation Markup Text

mutual

/-- The paths that an expression mentions. -/
def mentions : Node → List Path
  | .raw _ _ | .invalid _ _ | .unexpected _ => []
  | .use path _ => [path]
  | .loop _ path _ _ body => path :: body.mentions
  | .choice branches otherwise _ => branchMentions branches ++ alternativeMentions otherwise
  | .concat children => allMentions children

/-- The paths that branches mention, their conditions among them. -/
def branchMentions : List (Branch Node) → List Path
  | [] => []
  | ⟨path, _, body⟩ :: more => path :: (body.mentions ++ branchMentions more)

/-- The paths that an alternative mentions. -/
def alternativeMentions : Option (Alternative Node) → List Path
  | none => []
  | some ⟨_, body⟩ => body.mentions

/-- The paths that expressions in a row mention. -/
def allMentions : List Node → List Path
  | [] => []
  | node :: more => node.mentions ++ allMentions more

end

/-- Expressions in a row mention what each of them does. -/
theorem allMentions_eq_flatMap (nodes : List Node) :
    allMentions nodes = nodes.flatMap mentions := by
  induction nodes with
  | nil => rfl
  | cons node more ih => rw [allMentions, ih, List.flatMap_cons]

/-- Both contexts lead alike along the paths. -/
def Alike (paths : List Path) (context context' : Context) : Prop :=
  ∀ path ∈ paths, context.resolve? path.parts = context'.resolve? path.parts

instance (paths : List Path) (context context' : Context) :
    Decidable (Alike paths context context') :=
  inferInstanceAs (Decidable (∀ path ∈ paths, _))

variable {context context' : Context}

/-- Contexts that lead alike along some paths do so along fewer of them. -/
theorem Alike.mono {paths fewer : List Path} (alike : Alike paths context context')
    (inside : ∀ path ∈ fewer, path ∈ paths) : Alike fewer context context' :=
  fun path member => alike path (inside path member)

/-- Binding the same on top of both keeps contexts alike. -/
theorem Alike.bind {paths : List Path} (alike : Alike paths context context') (name : String)
    (value : Value) : Alike paths (context.bind name value) (context'.bind name value) := by
  intro path member
  rw [Context.resolve?_bind, Context.resolve?_bind, alike path member]

/-- Contexts that lead alike along the conditions decide alike. -/
theorem decision_congr {paths : List Path} (alike : Alike paths context context') :
    decision context paths = decision context' paths := by
  induction paths with
  | nil => rfl
  | cons path more ih =>
    have later := ih (alike.mono fun p member => List.mem_cons_of_mem _ member)
    rw [decision, decision, alike path (by simp), later]

/-- The body gives the same text under contexts that lead alike along all it mentions. -/
def HangsOnMentions (node : Node) : Prop :=
  ∀ context context', Alike node.mentions context context' →
    node.render context = node.render context'

/-- The conditions of branches are among the paths mentioned. -/
theorem map_path_subset_mentions (branches : List (Branch Node)) :
    ∀ path ∈ branches.map (·.path), path ∈ branchMentions branches := by
  induction branches with
  | nil => exact nofun
  | cons branch more ih =>
    obtain ⟨own, span, body⟩ := branch
    intro path member
    rcases List.mem_cons.mp member with rfl | member
    · simp [branchMentions]
    · simp [branchMentions, ih path member]

/-- The paths that a branch mentions are among those of all branches. -/
theorem mem_branchMentions {branches : List (Branch Node)} {branch : Branch Node}
    (member : branch ∈ branches) :
    ∀ path ∈ branch.body.mentions, path ∈ branchMentions branches := by
  induction branches with
  | nil => nomatch member
  | cons first more ih =>
    obtain ⟨own, span, body⟩ := first
    intro path inside
    rcases List.mem_cons.mp member with rfl | member
    · simp [branchMentions, inside]
    · simp [branchMentions, ih member path inside]

/-- A conditional mentions its conditions. -/
theorem mem_mentions_of_condition {branches : List (Branch Node)} {path : Path}
    (inside : path ∈ branches.map (·.path)) (otherwise : Option (Alternative Node))
    (closing : Span) : path ∈ (choice branches otherwise closing).mentions :=
  List.mem_append_left _ (map_path_subset_mentions branches path inside)

/-- A conditional mentions what its branches do. -/
theorem mem_mentions_of_branch {branches : List (Branch Node)} {branch : Branch Node}
    (member : branch ∈ branches) {path : Path} (inside : path ∈ branch.body.mentions)
    (otherwise : Option (Alternative Node)) (closing : Span) :
    path ∈ (choice branches otherwise closing).mentions :=
  List.mem_append_left _ (mem_branchMentions member path inside)

/-- A conditional mentions what its alternative does. -/
theorem mem_mentions_of_alternative {alternative : Alternative Node} {path : Path}
    (inside : path ∈ alternative.body.mentions) (branches : List (Branch Node)) (closing : Span) :
    path ∈ (choice branches (some alternative) closing).mentions :=
  List.mem_append_right _ inside

/-- A sequence mentions what its children do. -/
theorem mem_mentions_of_child {children : List Node} {child : Node} (member : child ∈ children)
    {path : Path} (inside : path ∈ child.mentions) : path ∈ (concat children).mentions := by
  rw [mentions, allMentions_eq_flatMap]
  exact List.mem_flatMap.mpr ⟨child, member, inside⟩

/-- Further branches give the same text under contexts that lead alike. -/
theorem writeRest_congr {branches : List (Branch Node)}
    (bodies : ∀ branch ∈ branches, branch.body.render context = branch.body.render context') :
    writeRest branches context = writeRest branches context' := by
  induction branches with
  | nil => rfl
  | cons branch more ih =>
    obtain ⟨path, span, body⟩ := branch
    have own : body.render context = body.render context' := bodies ⟨path, span, body⟩ (by simp)
    rw [writeRest, writeRest, own, ih fun b member => bodies b (List.mem_cons_of_mem _ member)]

/-- Branches give the same text under contexts that lead alike. -/
theorem writeFrom_congr {branches : List (Branch Node)}
    (bodies : ∀ branch ∈ branches, branch.body.render context = branch.body.render context')
    (index : Nat) : writeFrom index branches context = writeFrom index branches context' := by
  induction branches generalizing index with
  | nil => simp [writeFrom]
  | cons branch more ih =>
    obtain ⟨path, span, body⟩ := branch
    have own : body.render context = body.render context' := bodies ⟨path, span, body⟩ (by simp)
    have others := fun b member => bodies b (List.mem_cons_of_mem _ member)
    cases index with
    | zero => rw [writeFrom, writeFrom, own, writeRest_congr others]
    | succ index => exact ih others index

/-- A branch that is taken gives the same text under contexts that lead alike. -/
theorem renderBranch_congr {branches : List (Branch Node)}
    (bodies : ∀ branch ∈ branches, branch.body.render context = branch.body.render context')
    (index : Nat) : renderBranch index branches context = renderBranch index branches context' := by
  rw [renderBranch_eq_elim, renderBranch_eq_elim]
  cases found : branches[index]? with
  | none => rfl
  | some branch => exact bodies branch (List.mem_of_getElem? found)

/-- An alternative gives the same text under contexts that lead alike, written out or taken. -/
theorem alternative_congr {otherwise : Option (Alternative Node)}
    (last : ∀ alternative, otherwise = some alternative →
      alternative.body.render context = alternative.body.render context') :
    writeAlternative otherwise context = writeAlternative otherwise context' ∧
      renderAlternative otherwise context = renderAlternative otherwise context' := by
  cases otherwise with
  | none => exact ⟨rfl, rfl⟩
  | some alternative =>
    obtain ⟨span, body⟩ := alternative
    have own : body.render context = body.render context' := last ⟨span, body⟩ rfl
    rw [writeAlternative, writeAlternative, renderAlternative, renderAlternative, own]
    exact ⟨rfl, rfl⟩

/-- The text of an expression hangs on what the paths lead to that it mentions. -/
theorem render_congr (node : Node) : node.HangsOnMentions := by
  induction node using inductionOn with
  | raw text span => exact fun _ _ _ => rfl
  | invalid text span => exact fun _ _ _ => rfl
  | unexpected token => exact fun _ _ _ => rfl
  | use path span =>
    intro context context' alike
    rw [render, render, alike path (by simp [mentions])]
  | loop var path opening closing body ih =>
    intro context context' alike
    have inside : Alike body.mentions context context' :=
      alike.mono fun p member => by simp [mentions, member]
    have items (item : Value) := ih _ _ (inside.bind var.text item)
    rw [render, render, alike path (by simp [mentions]), ih _ _ inside]
    simp only [items]
  | choice branches otherwise closing bodies last =>
    intro context context' alike
    have conditions : Alike (branches.map (·.path)) context context' :=
      alike.mono fun path inside => mem_mentions_of_condition inside otherwise closing
    have each : ∀ branch ∈ branches, branch.body.render context = branch.body.render context' :=
      fun branch member => bodies branch member _ _ (alike.mono fun path inside =>
        mem_mentions_of_branch member inside otherwise closing)
    have alternative := alternative_congr fun alternative same =>
      last alternative same _ _ (alike.mono fun path inside =>
        same ▸ mem_mentions_of_alternative inside branches closing)
    rw [render, render, decision_congr conditions]
    cases decision context' (branches.map (·.path)) with
    | undecided index =>
      simp only [writeFrom_congr each, alternative.1]
    | taken index => exact renderBranch_congr each index
    | exhausted => exact alternative.2
  | concat children ih =>
    intro context context' alike
    rw [render, render, renderAll_eq_join, renderAll_eq_join]
    congr 1
    exact List.map_congr_left fun child member => ih child member _ _
      (alike.mono fun path inside => mem_mentions_of_child member inside)

/-- What is left of the expression is the same under contexts that lead alike along all paths it
mentions. -/
def LeavesByMentions (node : Node) : Prop :=
  ∀ context context', Alike node.mentions context context' →
    node.residual context = node.residual context'

/-- What is left of a branch that is taken is the same under contexts that lead alike. -/
theorem residualBranch_congr {branches : List (Branch Node)}
    (bodies : ∀ branch ∈ branches, branch.body.residual context = branch.body.residual context')
    (index : Nat) :
    residualBranch index branches context = residualBranch index branches context' := by
  rw [residualBranch_eq_elim, residualBranch_eq_elim]
  cases found : branches[index]? with
  | none => rfl
  | some branch => exact bodies branch (List.mem_of_getElem? found)

/-- What is left of an alternative is the same under contexts that lead alike. -/
theorem residualAlternative_congr {otherwise : Option (Alternative Node)}
    (last : ∀ alternative, otherwise = some alternative →
      alternative.body.residual context = alternative.body.residual context') :
    residualAlternative otherwise context = residualAlternative otherwise context' := by
  cases otherwise with
  | none => rfl
  | some alternative => exact last alternative rfl

/-- What is left of an expression hangs on what the paths lead to that it mentions. -/
theorem residual_congr (node : Node) : node.LeavesByMentions := by
  induction node using inductionOn with
  | raw text span => exact fun _ _ _ => rfl
  | invalid text span => exact fun _ _ _ => rfl
  | unexpected token => exact fun _ _ _ => rfl
  | use path span =>
    intro context context' alike
    rw [residual, residual, alike path (by simp [mentions])]
  | loop var path opening closing body ih =>
    intro context context' alike
    have inside : Alike body.mentions context context' :=
      alike.mono fun p member => by simp [mentions, member]
    have items (item : Value) := ih _ _ (inside.bind var.text item)
    rw [residual, residual, alike path (by simp [mentions])]
    simp only [items]
  | choice branches otherwise closing bodies last =>
    intro context context' alike
    have conditions : Alike (branches.map (·.path)) context context' :=
      alike.mono fun path inside => mem_mentions_of_condition inside otherwise closing
    have each : ∀ branch ∈ branches,
        branch.body.residual context = branch.body.residual context' :=
      fun branch member => bodies branch member _ _ (alike.mono fun path inside =>
        mem_mentions_of_branch member inside otherwise closing)
    have alternative := residualAlternative_congr fun alternative same =>
      last alternative same _ _ (alike.mono fun path inside =>
        same ▸ mem_mentions_of_alternative inside branches closing)
    rw [residual, residual, decision_congr conditions]
    cases decision context' (branches.map (·.path)) with
    | undecided index => rfl
    | taken index => exact residualBranch_congr each index
    | exhausted => exact alternative
  | concat children ih =>
    intro context context' alike
    rw [residual, residual, residuals_eq_map, residuals_eq_map]
    congr 1
    exact List.map_congr_left fun child member => ih child member _ _
      (alike.mono fun path inside => mem_mentions_of_child member inside)

end TextTemplate.Expression.Node
