import TextTemplate.Proofs.KeptTags
import TextTemplate.Proofs.ReachableTrees

/-!
# Evaluating trees with the tags that belong there

On a tree with its tags put on, nothing that is asked of a token is refused, and every evaluation
does what it does for the expression without tags. What is left of a tree has its tags put on again:
a conditional that is cut in front of a later branch gets an if tag in the place of the elif tag, as
if it had been written so. So the trees that are left are well-tagged when the others were.
-/

namespace TextTemplate.Expression

open Data Evaluation Markup Text

namespace Conditional

variable {β γ : Type}

/-- What is put behind the tags one after the other is put there at once. -/
theorem map_map {α : Type} (f : α → β) (g : β → γ) (conditional : Conditional α) :
    (conditional.map f).map g = conditional.map (g ∘ f) := by
  obtain ⟨branches, otherwise, closer⟩ := conditional
  simp [map, Tagged.map, Function.comp_def]

/-- What is put behind the tags hangs on what stands there. -/
theorem map_ofParts_congr {f g : β → γ} {branches : List (Branch β)}
    {otherwise : Option (Alternative β)}
    (bodies : ∀ branch ∈ branches, f branch.body = g branch.body)
    (last : ∀ alternative, otherwise = some alternative → f alternative.body = g alternative.body)
    (closing : Span) :
    (ofParts branches otherwise closing).map f = (ofParts branches otherwise closing).map g := by
  have same : branches.map (Branch.map f) = branches.map (Branch.map g) :=
    List.map_congr_left fun branch member => by rw [Branch.map, Branch.map, bodies branch member]
  have sameLast : otherwise.map (Alternative.map f) = otherwise.map (Alternative.map g) := by
    cases otherwise with
    | none => rfl
    | some alternative =>
      rw [Option.map_some, Option.map_some, Alternative.map, Alternative.map, last alternative rfl]
  rw [map_ofParts, map_ofParts, same, sameLast]

/-- With the tags put on that belong there, a conditional is written out as without tags. -/
theorem written_ofParts (branches : List (Branch Node)) (otherwise : Option (Alternative Node))
    (closing : Span) (context : Context) :
    ((ofParts branches otherwise closing).map fun body =>
        (.ok (body.render context) : Except Fault String)).written =
      .ok (Node.writeFrom 0 branches context ++ Node.writeAlternative otherwise context ++
        Lexeme.ifEnd.canonical) := by
  have behind : ((ofParts branches otherwise closing).map fun body =>
      (.ok (body.render context) : Except Fault String)).bodies =
      (bodiesOf branches otherwise).map fun body => .ok (body.render context) := by
    rw [map_ofParts, bodies_ofParts, bodiesOf]
    cases otherwise <;> simp [Branch.map, Alternative.map, Function.comp_def]
  have tags : ((ofParts branches otherwise closing).map fun body =>
      (.ok (body.render context) : Except Fault String)).tags =
      choiceTags branches otherwise closing := by
    rw [← tags_ofParts]
    cases otherwise <;> simp [map, Conditional.tags, ofParts, Tagged.map, Function.comp_def]
  have parts : ((choiceTags branches otherwise closing).zip
        ((bodiesOf branches otherwise).map fun body =>
          (.ok (body.render context) : Except Fault String))).mapM
      (fun part => do return part.1.canonical ++ (← part.2)) =
      .ok (((choiceTags branches otherwise closing).zip (bodiesOf branches otherwise)).map
        fun part => part.1.canonical ++ part.2.render context) := by
    rw [List.zip_map_right, List.mapM_map]
    exact Fault.mapM_ok fun part _ => rfl
  rw [written, tags, behind, parts, ← join_choiceTags branches otherwise closing]
  rfl

end Conditional

namespace Node

open Conditional

/-- With its tags put on, an expression has the text that it has without. -/
theorem render_dress (node : Node) (context : Context) :
    node.dress.render context = .ok (node.render context) := by
  induction node using inductionOn generalizing context with
  | raw _ _ | invalid _ _ | unexpected _ => rfl
  | use path span =>
    have held : Token.tryPath ⟨.use path, span⟩ = .ok path := rfl
    simp only [dress, Tree.render, held, Fault.ok_bind, render]
    cases context.resolve? path.parts with
    | none => rfl
    | some value => cases value <;> rfl
  | loop var path opening closing body ih =>
    simp only [dress, Tree.render, render]
    cases (context.resolve? path.parts).bind Value.loopItems? with
    | none => simp only [ih, Fault.ok_bind]; rfl
    | some items =>
      have each : items.mapM (fun item => body.dress.render (context.bind var.text item)) =
          .ok (items.map fun item => body.render (context.bind var.text item)) :=
        Fault.mapM_ok fun item _ => ih _
      simp only [each, Fault.ok_bind]
      rfl
  | choice branches otherwise closing bodies last =>
    have texts : ((ofParts branches otherwise closing).map dress).map (·.render context) =
        (ofParts branches otherwise closing).map fun body => .ok (body.render context) := by
      rw [map_map]
      exact map_ofParts_congr (fun branch member => bodies branch member context)
        (fun alternative same => last alternative same context) closing
    rw [dress_choice, Tree.render_ofConditional, texts]
    simp only [select_map_ofParts, render]
    cases decided : decision context (branches.map (·.path)) with
    | undecided index =>
      have inside := lt_of_decision_undecided decided
      rw [List.length_map] at inside
      simp only [fromBranch_map_ofParts _ (.inr inside), Fault.ok_bind, written_ofParts,
        ← writeFrom_eq_drop]
    | taken index =>
      simp only [renderBranch_eq_elim]
      cases branches[index]? <;> rfl
    | exhausted => cases otherwise <;> rfl
  | concat children ih =>
    have each : children.mapM ((Tree.render · context) ∘ dress) =
        .ok (children.map (·.render context)) :=
      Fault.mapM_ok fun child member => ih child member context
    rw [dress, Tree.render, Tree.renderAll_eq_mapM, dressAll_eq_map, List.mapM_map, each, render,
      renderAll_eq_join]
    rfl

/-- With its tags put on, an expression leaves what it leaves without, with the tags put on. -/
theorem residual_dress (node : Node) (context : Context) :
    node.dress.residual context = .ok (node.residual context).dress := by
  induction node using inductionOn generalizing context with
  | raw _ _ | invalid _ _ | unexpected _ => rfl
  | use path span =>
    have held : Token.tryPath ⟨.use path, span⟩ = .ok path := rfl
    simp only [dress, Tree.residual, held, Fault.ok_bind, residual]
    cases context.resolve? path.parts with
    | none => rfl
    | some value => cases value <;> rfl
  | loop var path opening closing body ih =>
    simp only [dress, Tree.residual, residual]
    cases (context.resolve? path.parts).bind Value.loopItems? with
    | none => rfl
    | some items =>
      have each : items.mapM (fun item => body.dress.residual (context.bind var.text item)) =
          .ok (items.map fun item => (body.residual (context.bind var.text item)).dress) :=
        Fault.mapM_ok fun item _ => ih _
      simp only [each, Fault.ok_bind, dress, dressAll_eq_map, List.map_map]
      rfl
  | choice branches otherwise closing bodies last =>
    have left : ((ofParts branches otherwise closing).map dress).map (·.residual context) =
        (ofParts branches otherwise closing).map fun body => .ok (body.residual context).dress := by
      rw [map_map]
      exact map_ofParts_congr (fun branch member => bodies branch member context)
        (fun alternative same => last alternative same context) closing
    rw [dress_choice, Tree.residual_ofConditional, left]
    simp only [select_map_ofParts, residual]
    cases decided : decision context (branches.map (·.path)) with
    | undecided index =>
      have inside := lt_of_decision_undecided decided
      rw [List.length_map] at inside
      simp only [fromBranch_map_ofParts _ (.inr inside), dress_choice]
      rfl
    | taken index =>
      simp only [residualBranch_eq_elim]
      cases branches[index]? <;> rfl
    | exhausted => cases otherwise <;> rfl
  | concat children ih =>
    have each : children.mapM ((Tree.residual · context) ∘ dress) =
        .ok (children.map fun child => (child.residual context).dress) :=
      Fault.mapM_ok fun child member => ih child member context
    rw [dress, Tree.residual, Tree.residuals_eq_mapM, dressAll_eq_map, List.mapM_map, each,
      residual, dress, dressAll_eq_map, residuals_eq_map, List.map_map]
    rfl

/-- Tags put on do not change whether an expression hangs on contexts. -/
theorem isFree_dress (node : Node) : node.dress.isFree = node.isFree := by
  induction node using inductionOn with
  | concat children ih =>
    have each : (children.map dress).all Tree.isFree = children.all isFree := by
      rw [List.all_map, Bool.eq_iff_iff, List.all_eq_true, List.all_eq_true]
      exact forall₂_congr fun child member => by rw [Function.comp_apply, ih child member]
    rw [dress, Tree.isFree, Tree.areFree_eq_all, dressAll_eq_map, each, isFree, areFree_eq_all]
  | raw _ _ | invalid _ _ | unexpected _ | use _ _ | loop _ _ _ _ _ _ | choice _ _ _ _ _ => rfl

/-- The conditions of branches are read off the tags that hold them. -/
theorem mapM_tryPath {β : Type} {branches : List (Branch β)} {rows : List (Tagged β)}
    (held : List.Forall₂ Conditional.Holds branches rows) :
    (rows.mapM fun row => do return (← row.token.tryPath).parts) =
      .ok (branches.map fun branch => branch.path.parts) := by
  induction held with
  | nil => rfl
  | cons same _ others =>
    rw [List.mapM_cons, same.1, others]
    rfl

/-- The shapes of branches are found behind the tags that hold them. -/
theorem branchShapes_of_holds {branches : List (Branch Tree)} {rows : List (Tagged Tree)}
    (held : List.Forall₂ Conditional.Holds branches rows) :
    Tree.branchShapes rows = branches.mapM (·.body.shape) := by
  induction held with
  | nil => rfl
  | cons own _ others =>
    rw [List.mapM_cons, ← others, ← own.2]
    rfl

/-- With its tags put on, an expression has the shape that it has without. -/
theorem shape_dress (node : Node) : node.dress.shape = .ok node.shape := by
  induction node using inductionOn with
  | raw _ _ | invalid _ _ | unexpected _ | use _ _ => rfl
  | loop var path opening closing body ih =>
    rw [dress, Tree.shape, ih]
    rfl
  | choice branches otherwise closing bodies last =>
    have held := holds_tagged (branches.map (Branch.map dress))
    have shapes : (branches.map (Branch.map dress)).mapM (·.body.shape) =
        .ok (branches.map fun branch => branch.body.shape) := by
      rw [List.mapM_map]
      exact Fault.mapM_ok bodies
    rw [dress_choice, map_ofParts, ofParts, Tree.ofConditional, Tree.shape]
    simp only [mapM_tryPath held, branchShapes_of_holds held, shapes, Fault.ok_bind, shape,
      branchShapes_eq_map, List.map_map]
    cases otherwise with
    | none => rfl
    | some alternative =>
      simp only [Option.map_some, Alternative.map, Tree.lastShape, last alternative rfl,
        Fault.ok_bind]
      rfl
  | concat children ih =>
    have each : children.mapM (Tree.shape ∘ dress) = .ok (children.map shape) :=
      Fault.mapM_ok ih
    rw [dress, Tree.shape, Tree.shapes_eq_mapM, dressAll_eq_map, List.mapM_map, each, shape,
      shapes_eq_map]
    rfl

/-- A conditional with its tags put on is cut where it is cut without, and has its tags put on
then. -/
theorem fromBranch?_dress (node : Node) (index : Nat) :
    node.dress.fromBranch? index =
      (node.fromBranch? index).map fun left => (left.mapError .misuse).map dress := by
  cases node with
  | choice branches otherwise closing =>
    rw [dress_choice]
    simp only [Tree.ofConditional, Tree.fromBranch?, fromBranch?, Option.map_some,
      Option.some.injEq]
    by_cases inside : index = 0 ∨ index < branches.length
    · simp only [inside, if_true, fromBranch_map_ofParts dress inside]
      rw [Except.mapError, Except.map, Except.map, dress_choice]
    · have further : index ≠ 0 := fun same => inside (.inl same)
      have beyond : ((tagged branches).map (·.body))[index]? = none := by
        rw [map_body_tagged, List.getElem?_eq_none_iff, List.length_map]
        exact Nat.not_lt.mp fun held => inside (.inr held)
      have absent : ((ofParts branches otherwise closing).map dress).branches[index]? = none := by
        rw [List.getElem?_map, Option.map_eq_none_iff] at beyond
        rw [Conditional.map, ofParts, List.getElem?_map, beyond, Option.map_none]
      rw [if_neg inside]
      simp only [Conditional.fromBranch, further, if_false, absent]
      rfl
  | raw _ _ | invalid _ _ | use _ _ | unexpected _ | loop _ _ _ _ _ | concat _ => rfl

/-- The parts of an expression with its tags put on have theirs. -/
theorem part?_dress (node : Node) (index : Nat) :
    node.dress.part? index =
      (node.part? index).map fun inner => (inner.mapError .misuse).map dress := by
  cases node with
  | choice branches otherwise closing =>
    rw [dress_choice, map_ofParts, Tree.ofConditional, Tree.part?, ofParts, part?]
    have same : (tagged (branches.map (Branch.map dress)))[index]?.map (·.body) =
        branches[index]?.map (·.body.dress) := by
      rw [← List.getElem?_map, map_body_tagged, List.map_map, List.getElem?_map]
      rfl
    cases found : branches[index]? with
    | none =>
      rw [found, Option.map_none, Option.map_eq_none_iff] at same
      rw [same]
      rfl
    | some branch =>
      rw [found, Option.map_some] at same
      obtain ⟨row, there, body⟩ := Option.map_eq_some_iff.mp same
      rw [there, Option.elim_some, body]
      rfl
  | concat children =>
    rw [dress, Tree.part?, part?, dressAll_eq_map, List.getElem?_map]
    cases children[index]? <;> rfl
  | loop var path opening closing body => rfl
  | raw _ _ | invalid _ _ | use _ _ | unexpected _ => rfl

/-- The alternative of a conditional with its tags put on has its own. -/
theorem alternative?_dress (node : Node) :
    node.dress.alternative? = node.alternative?.map dress := by
  cases node with
  | choice branches otherwise closing =>
    rw [dress_choice]
    cases otherwise <;> rfl
  | raw _ _ | invalid _ _ | use _ _ | unexpected _ | loop _ _ _ _ _ | concat _ => rfl

/-- With its tags put on, an expression in which every conditional has a branch is well-tagged. -/
theorem Branched.wellTagged_dress {node : Node} (branched : node.Branched) :
    WellTagged node.dress := by
  induction node using inductionOn with
  | raw text span => exact .raw text span
  | invalid text span => exact .invalid text span
  | use path span => exact .use path span
  | unexpected token => exact .unexpected token
  | loop var path opening closing body ih =>
    exact .loop rfl rfl (ih ((throughout_loop ..).mp branched).2)
  | choice branches otherwise closing bodies last =>
    obtain ⟨nonempty, inBranches, inLast⟩ := (throughout_choice ..).mp branched
    cases branches with
    | nil => exact absurd rfl nonempty
    | cons first more =>
      have inMore : ∀ branch ∈ more, WellTagged branch.body.dress := fun branch member =>
        bodies branch (List.mem_cons_of_mem _ member)
          (inBranches branch (List.mem_cons_of_mem _ member))
      rw [dress_choice, map_ofParts, ofParts, Tree.ofConditional, List.map_cons, tagged]
      refine .choice rfl ?_ ?_ rfl (bodies first (by simp) (inBranches first (by simp))) ?_ ?_
      · intro row member
        obtain ⟨branch, -, rfl⟩ := List.mem_map.mp member
        rfl
      · rintro row same
        obtain ⟨alternative, -, rfl⟩ := Option.map_eq_some_iff.mp same
        rfl
      · simpa [Branch.map] using inMore
      · rintro row same
        obtain ⟨alternative, known, rfl⟩ := Option.map_eq_some_iff.mp same
        obtain ⟨source, own, rfl⟩ := Option.map_eq_some_iff.mp known
        exact last source own (inLast source own)
  | concat children ih =>
    obtain ⟨-, inside⟩ := (throughout_concat ..).mp branched
    rw [dress, dressAll_eq_map]
    refine .concat fun child member => ?_
    obtain ⟨source, known, rfl⟩ := List.mem_map.mp member
    exact ih source known (inside source known)

end Node

end TextTemplate.Expression
