import TextTemplate.Template

/-!
# Places never influence evaluation

The shape of an expression tells its texts, the names it mentions and how it is put together, but no
places and no tags. That is enough to evaluate it: expressions of one shape hang on contexts alike,
give the same text under every context, and leave expressions of one shape. The tags of a construct
that is written out follow from its parts, so they are the same as well.
-/

namespace TextTemplate.Expression.Node

open Data Evaluation Markup Text

variable {α β γ : Type}

section Profiles

/-- What the evaluation of a conditional sees of its branches: the names of each condition, and what
`f` makes of the body. -/
def profiles (f : Node → α) (branches : List (Branch Node)) : List (List String × α) :=
  branches.map fun branch => (branch.path.parts, f branch.body)

/-- What the evaluation of a conditional sees of its alternative. -/
def lastProfile (f : Node → α) (otherwise : Option (Alternative Node)) : Option α :=
  otherwise.map fun alternative => f alternative.body

/-- The conditions of branches are told by their profiles. -/
theorem map_fst_profiles (f : Node → α) (branches : List (Branch Node)) :
    (profiles f branches).map Prod.fst = (branches.map (·.path)).map Path.parts := by
  rw [profiles, List.map_map, List.map_map]
  rfl

/-- What is made of the bodies of branches is told by their profiles. -/
theorem map_snd_profiles (f : Node → α) (branches : List (Branch Node)) :
    (profiles f branches).map Prod.snd = branches.map fun branch => f branch.body := by
  rw [profiles, List.map_map]
  rfl

/-- The text of a branch that is taken is told by the profiles. -/
theorem renderBranch_eq_profile (index : Nat) (branches : List (Branch Node)) (context : Context) :
    renderBranch index branches context =
      (profiles (·.render context) branches)[index]?.elim "" Prod.snd := by
  rw [renderBranch_eq_elim, profiles, List.getElem?_map]
  cases branches[index]? <;> rfl

/-- The shape of what is left of a branch that is taken is told by the profiles. -/
theorem shape_residualBranch (index : Nat) (branches : List (Branch Node)) (context : Context) :
    (residualBranch index branches context).shape =
      (profiles (fun body => (body.residual context).shape) branches)[index]?.elim
        (.node .concat []) Prod.snd := by
  rw [residualBranch_eq_elim, profiles, List.getElem?_map]
  cases branches[index]? <;> rfl

/-- The shape of what is left of an alternative that is taken is told by its profile. -/
theorem shape_residualAlternative (otherwise : Option (Alternative Node)) (context : Context) :
    (residualAlternative otherwise context).shape =
      (lastProfile (fun body => (body.residual context).shape) otherwise).elim
        (.node .concat []) id := by
  cases otherwise <;> rfl

/-- Branches as they are written out, from their profiles: the first one behind an if tag, the
others behind elif tags. -/
def writtenProfiles : List (List String × String) → String
  | [] => ""
  | first :: more =>
    statement ("if " ++ ".".intercalate first.1) ++ first.2 ++
      .join (more.map fun other => statement ("elif " ++ ".".intercalate other.1) ++ other.2)

/-- Further branches are written out from their profiles. -/
theorem writeRest_eq_profiles (branches : List (Branch Node)) (context : Context) :
    writeRest branches context = .join ((profiles (·.render context) branches).map fun other =>
      statement ("elif " ++ ".".intercalate other.1) ++ other.2) := by
  induction branches with
  | nil => rfl
  | cons branch more ih =>
    rw [writeRest, ih, profiles, profiles, List.map_cons, List.map_cons, String.join_cons]
    rfl

/-- Branches are written out from their profiles, from every index on. -/
theorem writeFrom_eq_profiles (index : Nat) (branches : List (Branch Node)) (context : Context) :
    writeFrom index branches context =
      writtenProfiles ((profiles (·.render context) branches).drop index) := by
  rw [writeFrom_eq_drop, profiles, ← List.map_drop]
  cases branches.drop index with
  | nil => rfl
  | cons branch more =>
    rw [writeFrom, writeRest_eq_profiles]
    rfl

/-- An alternative is taken or written out as its profile tells. -/
theorem alternative_eq_profile (otherwise : Option (Alternative Node)) (context : Context) :
    renderAlternative otherwise context =
        (lastProfile (·.render context) otherwise).elim "" id ∧
      writeAlternative otherwise context =
        (lastProfile (·.render context) otherwise).elim "" (Lexeme.elseTag.canonical ++ ·) := by
  cases otherwise <;> exact ⟨rfl, rfl⟩

/-- Which branch is selected hangs on the names of the conditions. -/
theorem decision_eq_of_parts {paths paths' : List Path}
    (same : paths.map Path.parts = paths'.map Path.parts) (context : Context) :
    decision context paths = decision context paths' := by
  induction paths generalizing paths' with
  | nil =>
    have nothing : paths' = [] := List.map_eq_nil_iff.mp same.symm
    rw [nothing]
  | cons path more ih =>
    cases paths' with
    | nil => nomatch same
    | cons path' more' =>
      obtain ⟨first, rest⟩ := List.cons.inj same
      rw [decision, decision, first, ih rest]

/-- Which branch is selected is told by the profiles. -/
theorem decision_eq_of_profiles {f : Node → α} {branches branches' : List (Branch Node)}
    (same : profiles f branches = profiles f branches') (context : Context) :
    decision context (branches.map (·.path)) = decision context (branches'.map (·.path)) := by
  have parts : (branches.map (·.path)).map Path.parts =
      (branches'.map (·.path)).map Path.parts := by
    rw [← map_fst_profiles f, ← map_fst_profiles f, same]
  exact decision_eq_of_parts parts context

end Profiles

/-- Rows that `g` changes to the same are changed to the same by whatever hangs on `g`. -/
theorem map_eq_of_map_eq {g : α → β} {f : α → γ} {row other : List α}
    (same : row.map g = other.map g) (hangs : ∀ x ∈ row, ∀ y, g x = g y → f x = f y) :
    row.map f = other.map f := by
  induction row generalizing other with
  | nil =>
    have nothing : other = [] := List.map_eq_nil_iff.mp same.symm
    rw [nothing]
  | cons x more ih =>
    cases other with
    | nil => nomatch same
    | cons y others =>
      obtain ⟨first, rest⟩ := List.cons.inj same
      have heads : f x = f y := hangs x (by simp) y first
      have tails := ih rest fun z member => hangs z (List.mem_cons_of_mem _ member)
      rw [List.map_cons, List.map_cons, heads, tails]

/-- The shape of the expression tells what `f` makes of it. -/
def ShapeTells (f : Node → α) (node : Node) : Prop :=
  ∀ other, node.shape = other.shape → f node = f other

/-- The shapes of the children tell what is made of them one by one. -/
theorem map_eq_of_shapes {f : Node → α} {children children' : List Node}
    (same : shapes children = shapes children')
    (each : ∀ child ∈ children, child.ShapeTells f) : children.map f = children'.map f := by
  rw [shapes_eq_map, shapes_eq_map] at same
  exact map_eq_of_map_eq same each

/-- The shapes of the bodies tell the profiles of branches. -/
theorem profiles_eq_of_shapes {f : Node → α} {branches branches' : List (Branch Node)}
    (same : profiles shape branches = profiles shape branches')
    (bodies : ∀ branch ∈ branches, branch.body.ShapeTells f) :
    profiles f branches = profiles f branches' := by
  refine map_eq_of_map_eq same fun branch member other alike => ?_
  obtain ⟨names, shapes⟩ := Prod.mk.inj alike
  exact Prod.ext names (bodies branch member other.body shapes)

/-- The shape of the body tells the profile of an alternative. -/
theorem lastProfile_eq_of_shape {f : Node → α} {otherwise otherwise' : Option (Alternative Node)}
    (same : lastProfile shape otherwise = lastProfile shape otherwise')
    (last : ∀ alternative, otherwise = some alternative → alternative.body.ShapeTells f) :
    lastProfile f otherwise = lastProfile f otherwise' := by
  cases otherwise with
  | none =>
    have nothing : otherwise' = none := Option.map_eq_none_iff.mp same.symm
    rw [nothing]
  | some alternative =>
    obtain ⟨other, found, shapes⟩ := Option.map_eq_some_iff.mp same.symm
    have told := last alternative rfl other.body shapes.symm
    rw [found]
    exact congrArg some told

/-- The shape of a conditional is made of the profiles of its branches and of its alternative. -/
theorem shape_choice (branches : List (Branch Node)) (otherwise : Option (Alternative Node))
    (closing : Span) :
    (choice branches otherwise closing).shape =
      .node (.choice ((profiles shape branches).map Prod.fst) otherwise.isSome)
        ((profiles shape branches).map Prod.snd ++ (lastProfile shape otherwise).toList) := by
  rw [shape, branchShapes_eq_map, alternativeShape_eq_map, map_snd_profiles, map_fst_profiles,
    List.map_map]
  rfl

/-- The shape of a conditional tells the profiles of its branches and of its alternative. -/
theorem profiles_of_shape_eq {branches branches' : List (Branch Node)}
    {otherwise otherwise' : Option (Alternative Node)} {closing closing' : Span}
    (same : (choice branches otherwise closing).shape =
      (choice branches' otherwise' closing').shape) :
    profiles shape branches = profiles shape branches' ∧
      lastProfile shape otherwise = lastProfile shape otherwise' := by
  rw [shape_choice, shape_choice, Shape.node.injEq, Label.choice.injEq] at same
  obtain ⟨⟨conditions, -⟩, parts⟩ := same
  have lengths : ((profiles shape branches).map Prod.snd).length =
      ((profiles shape branches').map Prod.snd).length := by
    simpa using congrArg List.length conditions
  obtain ⟨bodies, last⟩ := List.append_inj parts lengths
  constructor
  · calc profiles shape branches
      _ = ((profiles shape branches).map Prod.fst).zip ((profiles shape branches).map Prod.snd) :=
        List.zip_of_prod rfl rfl
      _ = profiles shape branches' := by
        rw [conditions, bodies]
        exact (List.zip_of_prod rfl rfl).symm
  · simpa using congrArg List.head? last

/-- Conditionals of the same profiles have the same shape. -/
theorem shape_choice_congr {branches branches' : List (Branch Node)}
    {otherwise otherwise' : Option (Alternative Node)}
    (same : profiles shape branches = profiles shape branches')
    (last : lastProfile shape otherwise = lastProfile shape otherwise')
    (closing closing' : Span) :
    (choice branches otherwise closing).shape = (choice branches' otherwise' closing').shape := by
  have present := congrArg Option.isSome last
  rw [lastProfile, lastProfile, Option.isSome_map, Option.isSome_map] at present
  rw [shape_choice, shape_choice, same, last, present]

/-- Two expressions that look the same, kind by kind, when places and tags are left out. -/
inductive LooksLike : Node → Node → Prop
  /-- The same literal text. -/
  | raw (text : String) (span span' : Span) : LooksLike (.raw text span) (.raw text span')
  /-- The same invalid tag. -/
  | invalid (text : String) (span span' : Span) :
      LooksLike (.invalid text span) (.invalid text span')
  /-- Places of values with paths of the same names. -/
  | use {path path' : Path} (names : path.parts = path'.parts) (span span' : Span) :
      LooksLike (.use path span) (.use path' span')
  /-- Unexpected tokens that are written alike. -/
  | unexpected {token token' : Token} (written : token.canonical = token'.canonical) :
      LooksLike (.unexpected token) (.unexpected token')
  /-- Loops over the same names, with bodies of the same shape. -/
  | loop {var var' : Ident} {path path' : Path} {body body' : Node} (name : var.text = var'.text)
      (names : path.parts = path'.parts) (inside : body.shape = body'.shape)
      (opening closing opening' closing' : Span) :
      LooksLike (.loop var path opening closing body) (.loop var' path' opening' closing' body')
  /-- Conditionals of the same profiles. -/
  | choice {branches branches' : List (Branch Node)}
      {otherwise otherwise' : Option (Alternative Node)}
      (same : profiles shape branches = profiles shape branches')
      (last : lastProfile shape otherwise = lastProfile shape otherwise')
      (closing closing' : Span) :
      LooksLike (.choice branches otherwise closing) (.choice branches' otherwise' closing')
  /-- Sequences of children of the same shapes. -/
  | concat {children children' : List Node} (same : shapes children = shapes children') :
      LooksLike (.concat children) (.concat children')

/-- Expressions of one shape look the same. -/
theorem looksLike_of_shape_eq {node other : Node} (same : node.shape = other.shape) :
    node.LooksLike other := by
  cases node with
  | raw text span =>
    cases other <;> simp only [shape, Shape.node.injEq, Label.raw.injEq, reduceCtorEq,
      false_and] at same
    obtain ⟨rfl, -⟩ := same
    exact .raw text span _
  | invalid text span =>
    cases other <;> simp only [shape, Shape.node.injEq, Label.invalid.injEq, reduceCtorEq,
      false_and] at same
    obtain ⟨rfl, -⟩ := same
    exact .invalid text span _
  | use path span =>
    cases other <;> simp only [shape, Shape.node.injEq, Label.use.injEq, reduceCtorEq,
      false_and] at same
    exact .use same.1 span _
  | unexpected token =>
    cases other <;> simp only [shape, Shape.node.injEq, Label.unexpected.injEq, reduceCtorEq,
      false_and] at same
    exact .unexpected same.1.2
  | loop var path opening closing body =>
    cases other <;> simp only [shape, Shape.node.injEq, Label.loop.injEq, reduceCtorEq,
      false_and] at same
    obtain ⟨⟨name, names⟩, inside⟩ := same
    exact .loop name names (List.singleton_inj.mp inside) opening closing _ _
  | choice branches otherwise closing =>
    cases other with
    | choice branches' otherwise' closing' =>
      obtain ⟨profiles, last⟩ := profiles_of_shape_eq same
      exact .choice profiles last closing closing'
    | _ => simp [shape] at same
  | concat children =>
    cases other <;> simp only [shape, Shape.node.injEq, reduceCtorEq, false_and, true_and] at same
    exact .concat same

/-- Whether an expression hangs on contexts is told by its shape. -/
theorem isFree_of_shape (node : Node) : node.ShapeTells isFree := by
  induction node using inductionOn with
  | concat children ih =>
    intro other same
    cases looksLike_of_shape_eq same with
    | concat shapes =>
      have all (row : List Node) : areFree row = (row.map isFree).all id := by
        rw [areFree_eq_all, List.all_map]
        rfl
      rw [isFree, isFree, all, all, map_eq_of_shapes shapes ih]
  | raw _ _ | invalid _ _ | unexpected _ | use _ _ | loop _ _ _ _ _ _ | choice _ _ _ _ _ =>
    -- All other kinds answer at once, by their kind alone.
    intro other same
    cases looksLike_of_shape_eq same
    rfl

/-- The text of an expression is told by its shape. -/
theorem render_of_shape (node : Node) (context : Context) :
    node.ShapeTells (·.render context) := by
  induction node using inductionOn generalizing context with
  | raw text span =>
    intro other same
    cases looksLike_of_shape_eq same with
    | raw => rfl
  | invalid text span =>
    intro other same
    cases looksLike_of_shape_eq same with
    | invalid => rfl
  | unexpected token =>
    intro other same
    cases looksLike_of_shape_eq same with
    | unexpected written => exact written
  | use path span =>
    intro other same
    cases looksLike_of_shape_eq same with
    | @use _ path' names =>
      have tag : (Lexeme.use path).canonical = (Lexeme.use path').canonical := by
        simp only [Lexeme.canonical, Path.dotted, names]
      simp only [render, names, tag]
  | loop var path opening closing body ih =>
    intro other same
    cases looksLike_of_shape_eq same with
    | @loop _ var' _ path' _ body' name names inside =>
      have tag : (Lexeme.forStart var path).canonical =
          (Lexeme.forStart var' path').canonical := by
        simp only [Lexeme.canonical, Path.dotted, name, names]
      have bodies (inner : Context) : body.render inner = body'.render inner :=
        ih inner body' inside
      simp only [render, name, names, tag, bodies]
  | choice branches otherwise closing bodies last =>
    intro other same
    cases looksLike_of_shape_eq same with
    | @choice _ branches' _ otherwise' shapes lastShape =>
      have texts := profiles_eq_of_shapes shapes fun branch member => bodies branch member context
      have lastText := lastProfile_eq_of_shape lastShape fun alternative same =>
        last alternative same context
      have selected := decision_eq_of_profiles shapes context
      have alternative := alternative_eq_profile otherwise context
      have alternative' := alternative_eq_profile otherwise' context
      rw [← lastText] at alternative'
      simp only [render, selected, writeFrom_eq_profiles, renderBranch_eq_profile, texts,
        alternative.1, alternative'.1, alternative.2, alternative'.2]
  | concat children ih =>
    intro other same
    cases looksLike_of_shape_eq same with
    | concat shapes =>
      have each := map_eq_of_shapes shapes fun child member => ih child member context
      simp only [render, renderAll_eq_join, each]

/-- The shape of what is left of an expression is told by its shape. -/
theorem residual_of_shape (node : Node) (context : Context) :
    node.ShapeTells fun node => (node.residual context).shape := by
  induction node using inductionOn generalizing context with
  | raw text span =>
    intro other same
    cases looksLike_of_shape_eq same with
    | raw => rfl
  | invalid text span =>
    intro other same
    cases looksLike_of_shape_eq same with
    | invalid => rfl
  | unexpected token =>
    intro other same
    cases looksLike_of_shape_eq same with
    | unexpected => exact same
  | use path span =>
    intro other same
    cases looksLike_of_shape_eq same with
    | @use _ path' names =>
      simp only [residual, names]
      split
      · rfl
      · exact same
  | loop var path opening closing body ih =>
    intro other same
    cases looksLike_of_shape_eq same with
    | @loop _ var' _ path' _ body' name names inside =>
      simp only [residual, names]
      cases (context.resolve? path'.parts).bind Value.loopItems? with
      | none => exact same
      | some items =>
        have bodies (inner : Context) : (body.residual inner).shape = (body'.residual inner).shape :=
          ih inner body' inside
        simp only [shape, shapes_eq_map, List.map_map, Function.comp_def, name, bodies]
  | choice branches otherwise closing bodies last =>
    intro other same
    cases looksLike_of_shape_eq same with
    | @choice _ branches' _ otherwise' shapes lastShape =>
      have selected := decision_eq_of_profiles shapes context
      simp only [residual, selected]
      cases decision context (branches'.map (·.path)) with
      | undecided index =>
        have dropped : profiles shape (branches.drop index) =
            profiles shape (branches'.drop index) := by
          simp only [profiles, List.map_drop] at shapes ⊢
          rw [shapes]
        exact shape_choice_congr dropped lastShape _ _
      | taken index =>
        have left := profiles_eq_of_shapes shapes fun branch member => bodies branch member context
        simp only [shape_residualBranch, left]
      | exhausted =>
        have left := lastProfile_eq_of_shape lastShape fun alternative same =>
          last alternative same context
        simp only [shape_residualAlternative, left]
  | concat children ih =>
    intro other same
    cases looksLike_of_shape_eq same with
    | concat shapes =>
      have each := map_eq_of_shapes shapes fun child member => ih child member context
      simp only [residual, shape, residuals_eq_map, shapes_eq_map, List.map_map]
      exact congrArg _ each

end TextTemplate.Expression.Node
