import Mathlib.Data.List.Forall2
import TextTemplate.Evaluation.Tagged
import TextTemplate.Proofs.CheckedEvaluation

/-!
# The tags that a tree keeps

A tree that keeps its tags may hold any tokens. In a well-tagged one every token is of the kind that
its place asks for: the first branch of a conditional stands behind an if tag and all others behind
elif tags, the alternative behind an else tag, the tags of a loop hold its own name and path, and
all closers are of the right kind. Well-tagged trees are exactly those that come from expressions
without tags, each with its tags put on by its place. On them both evaluations, the shape and all
ways into a part do what they do for the expression without tags, and nothing they ask of a token is
refused.
-/

namespace TextTemplate.Expression

open Data Evaluation Markup Text

/-- Every token in the tree is of the kind that its place asks for. -/
inductive WellTagged : Tree → Prop
  /-- Literal text. -/
  | raw (text : String) (span : Span) : WellTagged (.raw ⟨.raw text, span⟩)
  /-- A statement tag that could not be read. -/
  | invalid (text : String) (span : Span) : WellTagged (.invalid ⟨.invalid text, span⟩)
  /-- The place of a value. -/
  | use (path : Path) (span : Span) : WellTagged (.use ⟨.use path, span⟩)
  /-- A token that no construct could use, of any kind. -/
  | unexpected (token : Token) : WellTagged (.unexpected token)
  /-- A loop between tags of its own, the first one with its name and its path. -/
  | loop {var : Ident} {path : Path} {opener closer : Token} {body : Tree}
      (opens : opener.lexeme = .forStart var path) (closes : closer.lexeme = .forEnd)
      (inside : WellTagged body) : WellTagged (.loop var path opener closer body)
  /-- A conditional with an if tag in front, elif tags behind it, perhaps an else tag, and its
  end. -/
  | choice {first : Tagged Tree} {more : List (Tagged Tree)} {otherwise : Option (Tagged Tree)}
      {closer : Token} (opens : first.token.kind = .ifStart)
      (continues : ∀ branch ∈ more, branch.token.kind = .elifTag)
      (ends : ∀ last, otherwise = some last → last.token.lexeme = .elseTag)
      (closes : closer.lexeme = .ifEnd) (inFirst : WellTagged first.body)
      (inMore : ∀ branch ∈ more, WellTagged branch.body)
      (inLast : ∀ last, otherwise = some last → WellTagged last.body) :
      WellTagged (.choice (first :: more) otherwise closer)
  /-- Expressions one after the other. -/
  | concat {children : List Tree} (each : ∀ child ∈ children, WellTagged child) :
      WellTagged (.concat children)

namespace Conditional

variable {α β γ : Type}

/-- The branch behind the tag that its place asks for, the first one or a later one. -/
def tagged : List (Branch β) → List (Tagged β)
  | [] => []
  | first :: more =>
    ⟨⟨.ifStart first.path, first.span⟩, first.body⟩ ::
      more.map fun branch => ⟨⟨.elifTag branch.path, branch.span⟩, branch.body⟩

/-- The parts of a conditional behind the tags that their places ask for. -/
def ofParts (branches : List (Branch β)) (otherwise : Option (Alternative β)) (closing : Span) :
    Conditional β :=
  ⟨tagged branches, otherwise.map fun last => ⟨⟨.elseTag, last.span⟩, last.body⟩, ⟨.ifEnd, closing⟩⟩

variable (branches : List (Branch β)) (otherwise : Option (Alternative β)) (closing : Span)

/-- The tags put on do not hang on what stands behind them. -/
theorem map_ofParts (f : β → γ) :
    (ofParts branches otherwise closing).map f =
      ofParts (branches.map (·.map f)) (otherwise.map (·.map f)) closing := by
  cases branches <;> cases otherwise <;>
    simp [ofParts, map, tagged, Tagged.map, Branch.map, Alternative.map, Function.comp_def]

/-- The tags put on are those of the conditional. -/
theorem tags_ofParts :
    (ofParts branches otherwise closing).tags = choiceTags branches otherwise closing := by
  cases branches <;> cases otherwise <;>
    simp [ofParts, tags, tagged, choiceTags, branchTags, Function.comp_def]

/-- Behind the tags put on stand the bodies of the branches. -/
theorem map_body_tagged : (tagged branches).map (·.body) = branches.map (·.body) := by
  cases branches <;> simp [tagged, Function.comp_def]

/-- What stands behind the tags put on is what stood there. -/
theorem bodies_ofParts : (ofParts branches otherwise closing).bodies =
    branches.map (·.body) ++ (otherwise.map (·.body)).toList := by
  rw [bodies, ofParts, map_body_tagged]
  cases otherwise <;> rfl

/-- The tag holds the path of the branch, and the body of the branch stands behind it. -/
def Holds (branch : Branch β) (row : Tagged β) : Prop :=
  row.token.tryPath = .ok branch.path ∧ row.body = branch.body

/-- The tags put on hold the branches. -/
theorem holds_tagged : List.Forall₂ Holds branches (tagged branches) := by
  cases branches with
  | nil => exact .nil
  | cons first more =>
    refine .cons ⟨rfl, rfl⟩ ?_
    rw [List.forall₂_map_right_iff]
    exact List.forall₂_same.mpr fun branch _ => ⟨rfl, rfl⟩

variable {branches otherwise closing}

/-- A conditional that is cut and tagged anew is as if the branches dropped had never been there. -/
theorem fromBranch_ofParts {index : Nat} (inside : index = 0 ∨ index < branches.length) :
    (ofParts branches otherwise closing).fromBranch index =
      .ok (ofParts (branches.drop index) otherwise closing) := by
  cases index with
  | zero => rfl
  | succ index =>
    have inside : index + 1 < branches.length := inside.resolve_left (Nat.succ_ne_zero index)
    cases branches with
    | nil => exact absurd inside (Nat.not_lt_zero _)
    | cons first more =>
      have held : index < more.length := Nat.lt_of_succ_lt_succ inside
      have found : (tagged (first :: more))[index + 1]? =
          some ⟨⟨.elifTag more[index].path, more[index].span⟩, more[index].body⟩ := by
        simp [tagged, held]
      have left : more.drop index = more[index] :: more.drop (index + 1) :=
        List.drop_eq_getElem_cons held
      simp only [fromBranch, ofParts, found, Nat.succ_ne_zero, if_false, List.drop_succ_cons, left]
      simp [tagged, Token.tryPath, Lexeme.path?, List.map_drop]
      rfl

/-- What a context selects among branches hangs on what it knows about the paths of their tags. -/
theorem selectFrom_eq {context : Context} {undecided : Nat → Except Fault α}
    {taken : β → Except Fault α} {exhausted : Except Fault α} (nothing : Except Fault α)
    {rows : List (Tagged β)} (index : Nat)
    (held : List.Forall₂ Holds branches rows) :
    selectFrom context undecided taken exhausted index rows =
      match decision context (branches.map (·.path)) with
      | .undecided i => undecided (index + i)
      | .taken i => branches[i]?.elim nothing (taken ·.body)
      | .exhausted => exhausted := by
  induction held generalizing index with
  | nil => rfl
  | @cons branch tag branches rows same others ih =>
    obtain ⟨token, body⟩ := tag
    obtain ⟨path, rfl⟩ := same
    simp only [selectFrom, path, Fault.ok_bind, List.map_cons, decision]
    cases context.resolve? branch.path.parts with
    | none => rfl
    | some value =>
      by_cases holds : value.truthy
      · simp [holds]
      · simp only [holds, ih (index + 1)]
        cases decision context (branches.map (·.path)) with
        | undecided i => simp [Decision.next, Nat.add_assoc, Nat.add_comm 1 i]
        | taken i => simp [Decision.next]
        | exhausted => rfl

/-- What a context selects in a conditional with its tags put on hangs on what it knows about the
conditions. -/
theorem select_ofParts (context : Context) (undecided : Nat → Except Fault α)
    (taken : β → Except Fault α) (nothing : α) :
    (ofParts branches otherwise closing).select context undecided taken nothing =
      match decision context (branches.map (·.path)) with
      | .undecided i => undecided i
      | .taken i => branches[i]?.elim (.ok nothing) (taken ·.body)
      | .exhausted => otherwise.elim (.ok nothing) (taken ·.body) := by
  rw [select, ofParts, selectFrom_eq (.ok nothing) 0 (holds_tagged branches)]
  cases decision context (branches.map (·.path)) with
  | undecided i => simp
  | taken i => rfl
  | exhausted => cases otherwise <;> rfl

/-- What is selected behind tags put on is selected among what was put behind them. -/
theorem select_map_ofParts (f : β → γ) (context : Context) (undecided : Nat → Except Fault α)
    (taken : γ → Except Fault α) (nothing : α) :
    ((ofParts branches otherwise closing).map f).select context undecided taken nothing =
      match decision context (branches.map (·.path)) with
      | .undecided i => undecided i
      | .taken i => branches[i]?.elim (.ok nothing) fun branch => taken (f branch.body)
      | .exhausted => otherwise.elim (.ok nothing) fun last => taken (f last.body) := by
  have paths : (branches.map (Branch.map f)).map (·.path) = branches.map (·.path) := by
    rw [List.map_map]
    rfl
  rw [map_ofParts, select_ofParts, paths]
  cases decision context (branches.map (·.path)) with
  | undecided i => rfl
  | taken i =>
    simp only [List.getElem?_map]
    cases branches[i]? <;> rfl
  | exhausted => cases otherwise <;> rfl

/-- Behind whichever bodies, a conditional with its tags put on is cut as if the branches dropped
had never been there. -/
theorem fromBranch_map_ofParts (f : β → γ) {index : Nat}
    (inside : index = 0 ∨ index < branches.length) :
    ((ofParts branches otherwise closing).map f).fromBranch index =
      .ok ((ofParts (branches.drop index) otherwise closing).map f) := by
  have held : index = 0 ∨ index < (branches.map (Branch.map f)).length := by
    rwa [List.length_map]
  rw [map_ofParts, fromBranch_ofParts held, map_ofParts, List.map_drop]

end Conditional

mutual

/-- The expression with the tags put on that the places of its tokens ask for. -/
def Node.dress : Node → Tree
  | .raw text span => .raw ⟨.raw text, span⟩
  | .invalid text span => .invalid ⟨.invalid text, span⟩
  | .use path span => .use ⟨.use path, span⟩
  | .unexpected token => .unexpected token
  | .loop var path opening closing body =>
    .loop var path ⟨.forStart var path, opening⟩ ⟨.forEnd, closing⟩ body.dress
  | .choice branches otherwise closing =>
    .ofConditional (.ofParts (dressBranches branches) (dressLast otherwise) closing)
  | .concat children => .concat (dressAll children)

/-- Branches with tags put on inside them. -/
def Node.dressBranches : List (Branch Node) → List (Branch Tree)
  | [] => []
  | ⟨path, span, body⟩ :: more => ⟨path, span, body.dress⟩ :: dressBranches more

/-- An alternative with tags put on inside it. -/
def Node.dressLast : Option (Alternative Node) → Option (Alternative Tree)
  | none => none
  | some ⟨span, body⟩ => some ⟨span, body.dress⟩

/-- Expressions with their tags put on. -/
def Node.dressAll : List Node → List Tree
  | [] => []
  | node :: more => node.dress :: dressAll more

end

namespace Node

/-- Tags are put on inside each branch. -/
theorem dressBranches_eq_map (branches : List (Branch Node)) :
    dressBranches branches = branches.map (·.map dress) := by
  induction branches with
  | nil => rfl
  | cons branch more ih => simp [dressBranches, ih, Branch.map]

/-- Tags are put on inside an alternative. -/
theorem dressLast_eq_map (otherwise : Option (Alternative Node)) :
    dressLast otherwise = otherwise.map (·.map dress) := by
  cases otherwise <;> rfl

/-- Tags are put on child by child. -/
theorem dressAll_eq_map (nodes : List Node) : dressAll nodes = nodes.map dress := by
  induction nodes with
  | nil => rfl
  | cons node more ih => simp [dressAll, ih]

/-- A conditional gets its tags in front of bodies that have theirs. -/
theorem dress_choice (branches : List (Branch Node)) (otherwise : Option (Alternative Node))
    (closing : Span) :
    (choice branches otherwise closing).dress =
      .ofConditional ((Conditional.ofParts branches otherwise closing).map dress) := by
  rw [dress, dressBranches_eq_map, dressLast_eq_map, Conditional.map_ofParts]

end Node

namespace Tree

/-- The texts of expressions are found one by one. -/
theorem renderAll_eq_mapM (trees : List Tree) (context : Context) :
    renderAll trees context = trees.mapM (·.render context) := by
  induction trees with
  | nil => rfl
  | cons tree more ih => rw [renderAll, List.mapM_cons, ih]

/-- What is left of expressions is found one by one. -/
theorem residuals_eq_mapM (trees : List Tree) (context : Context) :
    residuals trees context = trees.mapM (·.residual context) := by
  induction trees with
  | nil => rfl
  | cons tree more ih => rw [residuals, List.mapM_cons, ih]

/-- The shapes of expressions are found one by one. -/
theorem shapes_eq_mapM (trees : List Tree) : shapes trees = trees.mapM (·.shape) := by
  induction trees with
  | nil => rfl
  | cons tree more ih => rw [shapes, List.mapM_cons, ih]

/-- Expressions hang on no context when each of them does not. -/
theorem areFree_eq_all (trees : List Tree) : areFree trees = trees.all isFree := by
  induction trees with
  | nil => rfl
  | cons tree more ih => rw [areFree, List.all_cons, ih]

/-- The texts behind the tags of branches are those of the bodies. -/
theorem renderBranches_eq_map (branches : List (Tagged Tree)) (context : Context) :
    renderBranches branches context = branches.map (·.map (·.render context)) := by
  induction branches with
  | nil => rfl
  | cons branch more ih => simp [renderBranches, ih, Tagged.map]

/-- What is left behind the tags of branches is what is left of the bodies. -/
theorem residualBranches_eq_map (branches : List (Tagged Tree)) (context : Context) :
    residualBranches branches context = branches.map (·.map (·.residual context)) := by
  induction branches with
  | nil => rfl
  | cons branch more ih => simp [residualBranches, ih, Tagged.map]

variable (conditional : Conditional Tree) (context : Context)

/-- A conditional is written from the texts of its bodies. -/
theorem render_ofConditional :
    (ofConditional conditional).render context =
      let texts := conditional.map (·.render context)
      texts.select context (fun index => do (← texts.fromBranch index).written) id "" := by
  obtain ⟨branches, otherwise, closer⟩ := conditional
  have last : renderLast otherwise context = otherwise.map (·.map (·.render context)) := by
    cases otherwise <;> rfl
  rw [ofConditional, render, renderBranches_eq_map, last]
  rfl

/-- A conditional leaves what is left of its bodies, or is cut. -/
theorem residual_ofConditional :
    (ofConditional conditional).residual context =
      (conditional.map (·.residual context)).select context
        (fun index => (conditional.fromBranch index).map ofConditional) id (.concat []) := by
  obtain ⟨branches, otherwise, closer⟩ := conditional
  have last : residualLast otherwise context = otherwise.map (·.map (·.residual context)) := by
    cases otherwise <;> rfl
  rw [ofConditional, residual, residualBranches_eq_map, last]
  rfl

end Tree

end TextTemplate.Expression
