import TextTemplate.Proofs.Mentions
import TextTemplate.Proofs.TaggedEvaluation
import TextTemplate.Template

/-!
# What is left in two stages

What a first context leaves of an expression can be taken further by a context that knows more. The
result is what the second context leaves of the expression itself, as long as no loop that the
first stage unrolls leaves its variable behind: for an unrolled body the second stage no longer
knows what the variable was bound to. Nothing is said here about loops that are left as they are.
-/

namespace TextTemplate.Expression.Node

open Data Evaluation Markup

/-- Binding a name that no path starts with makes no difference along the paths. -/
theorem alike_bind {context : Context} {paths : List Path} {name : String}
    (unused : ∀ path ∈ paths, path.root ≠ name) (value : Value) :
    Alike paths context (context.bind name value) := by
  intro path member
  rw [Context.resolve?_bind, if_neg (unused path member)]

/-- One round of a loop that is unrolled. -/
structure Round where
  /-- The name that the loop binds. -/
  name : String
  /-- What is left of the body in this round. -/
  left : Node

/-- The loop leaves no path behind that starts with its variable. -/
def Round.Clean (round : Round) : Prop := ∀ path ∈ round.left.mentions, path.root ≠ round.name

instance (round : Round) : Decidable round.Clean :=
  inferInstanceAs (Decidable (∀ path ∈ round.left.mentions, _))

mutual

/-- All rounds of all loops that are unrolled on the way through an expression. -/
def rounds : Node → Context → List Round
  | .raw _ _, _ | .invalid _ _, _ | .use _ _, _ | .unexpected _, _ => []
  | .loop var path _ _ body, context =>
    match (context.resolve? path.parts).bind Value.loopItems? with
    | some items =>
      items.flatMap fun item =>
        ⟨var.text, body.residual (context.bind var.text item)⟩ ::
          body.rounds (context.bind var.text item)
    | none => []
  | .choice branches otherwise _, context =>
    match decision context (branches.map (·.path)) with
    | .undecided _ => []
    | .taken index => branchRounds index branches context
    | .exhausted => alternativeRounds otherwise context
  | .concat children, context => allRounds children context

/-- The rounds in the branch at an index. -/
def branchRounds : Nat → List (Branch Node) → Context → List Round
  | _, [], _ => []
  | 0, ⟨_, _, body⟩ :: _, context => body.rounds context
  | index + 1, _ :: more, context => branchRounds index more context

/-- The rounds in an alternative. -/
def alternativeRounds : Option (Alternative Node) → Context → List Round
  | none, _ => []
  | some ⟨_, body⟩, context => body.rounds context

/-- The rounds in expressions one after the other. -/
def allRounds : List Node → Context → List Round
  | [], _ => []
  | node :: more, context => node.rounds context ++ allRounds more context

end

/-- A branch taken has the rounds in its body. -/
theorem branchRounds_eq_elim (index : Nat) (branches : List (Branch Node)) (context : Context) :
    branchRounds index branches context =
      branches[index]?.elim [] fun branch => branch.body.rounds context := by
  induction branches generalizing index with
  | nil => simp [branchRounds]
  | cons branch more ih => cases index <;> simp [branchRounds, ih]

/-- Expressions in a row have the rounds in each of them. -/
theorem allRounds_eq_flatMap (nodes : List Node) (context : Context) :
    allRounds nodes context = nodes.flatMap (·.rounds context) := by
  induction nodes with
  | nil => rfl
  | cons node more ih => rw [allRounds, ih, List.flatMap_cons]

/-- Conditions that are known to fail may be left out: what is left is left of the conditional
without their branches. -/
theorem residual_choice_drop {branches : List (Branch Node)} {context : Context} {index : Nat}
    (fails : decision context (branches.map (·.path)) =
      (decision context ((branches.drop index).map (·.path))).shift index)
    (otherwise : Option (Alternative Node)) (closing : Text.Span) :
    (choice branches otherwise closing).residual context =
      (choice (branches.drop index) otherwise closing).residual context := by
  rw [residual, residual, fails]
  cases decision context ((branches.drop index).map (·.path)) with
  | undecided more => simp only [Decision.shift, List.drop_drop]
  | taken more => simp only [Decision.shift, residualBranch_eq_elim, List.getElem?_drop]
  | exhausted => rfl

/-- A second stage that knows more leaves of what the first one left what it leaves of the
expression itself, provided that every round of an unrolled loop is clean. -/
theorem residual_residual (node : Node) {context later : Context}
    (grown : later.Extends context) (clean : ∀ round ∈ node.rounds context, round.Clean) :
    (node.residual context).residual later = node.residual later := by
  induction node using inductionOn generalizing context later with
  | raw text span => rfl
  | invalid text span => rfl
  | unexpected token => rfl
  | use path span =>
    cases found : context.resolve? path.parts with
    | none => rw [residual, found]
    | some value =>
      have found' := grown.resolve? found
      cases value with
      | text content => simp only [residual, found, found']
      | list items => rw [residual, found]
      | map fields => rw [residual, found]
  | loop var path opening closing body ih =>
    cases found : (context.resolve? path.parts).bind Value.loopItems? with
    | none => rw [residual, found]
    | some items =>
      obtain ⟨value, led, looped⟩ := Option.bind_eq_some_iff.mp found
      have found' : (later.resolve? path.parts).bind Value.loopItems? = some items := by
        rw [grown.resolve? led, Option.bind_some, looped]
      have round (item : Value) (member : item ∈ items) :
          (body.residual (context.bind var.text item)).residual later =
            body.residual (later.bind var.text item) := by
        have own : ∀ round ∈ (⟨var.text, body.residual (context.bind var.text item)⟩ : Round) ::
            body.rounds (context.bind var.text item), round.Clean := by
          intro round inside
          refine clean round ?_
          simp only [rounds, found]
          exact List.mem_flatMap.mpr ⟨item, member, inside⟩
        obtain ⟨unused, inner⟩ := List.forall_mem_cons.mp own
        have forgotten := residual_congr (body.residual (context.bind var.text item)) later
          (later.bind var.text item) (alike_bind unused item)
        rw [forgotten]
        exact ih (grown.bind var.text item) inner
      simp only [residual, found, found', residuals_eq_map, List.map_map]
      congr 1
      exact List.map_congr_left round
  | choice branches otherwise closing bodies last =>
    have decided := decision_extends grown (branches.map (·.path))
    cases known : decision context (branches.map (·.path)) with
    | undecided index =>
      simp only [known, ← List.map_drop] at decided
      have left : (choice branches otherwise closing).residual context =
          .choice (branches.drop index) otherwise closing := by rw [residual, known]
      rw [left, residual_choice_drop decided]
    | taken index =>
      simp only [known] at decided
      simp only [rounds, known, branchRounds_eq_elim] at clean
      simp only [residual, known, decided, residualBranch_eq_elim]
      cases found : branches[index]? with
      | none => simp [residual, residuals]
      | some branch =>
        rw [found] at clean
        exact bodies branch (List.mem_of_getElem? found) grown clean
    | exhausted =>
      simp only [known] at decided
      simp only [rounds, known] at clean
      simp only [residual, known, decided]
      cases otherwise with
      | none => simp [residualAlternative, residual, residuals]
      | some alternative => exact last alternative rfl grown clean
  | concat children ih =>
    rw [rounds, allRounds_eq_flatMap] at clean
    simp only [residual, residuals_eq_map, List.map_map]
    congr 1
    refine List.map_congr_left fun child member => ih child member grown fun round inside => ?_
    exact clean round (List.mem_flatMap.mpr ⟨child, member, inside⟩)

/-- Two stages leave the tags that one leaves, on trees that hold them: where the second stage cuts a
conditional once more, the tag it puts in front is the one that a single stage puts there. -/
theorem residual_residual_dress (node : Node) {context later : Context}
    (grown : later.Extends context) (clean : ∀ round ∈ node.rounds context, round.Clean) :
    (do (← node.dress.residual context).residual later) = node.dress.residual later := by
  rw [residual_dress, Fault.ok_bind, residual_dress, residual_dress,
    residual_residual node grown clean]

/-- Two stages fuse into one. For any expression and a second context that extends the first one,
if no round of a loop that the first stage unrolls leaves a path behind that starts with the
variable of the loop, then what the second stage leaves of the rest is what it leaves of the
expression itself, all places included. So a stage taken twice is a stage taken once. -/
theorem residual_fuses (node : Node) {context later : Context} (grown : later.Extends context)
    (clean : ∀ round ∈ node.rounds context, round.Clean) :
    (node.residual context).residual later = node.residual later ∧
      (node.residual context).residual context = node.residual context := by
  have same : context.Extends context := fun _ _ found => found
  exact ⟨residual_residual node grown clean, residual_residual node same clean⟩

/-- A loop is unrolled, and in one round a conditional is cut down to its second branch, which only
the second stage decides. -/
theorem residual_fuses_members :
    let text := statement "for m in members" ++ statement "if m.admin" ++
      interpolation "m.name" ++ statement "elif open" ++ interpolation "note" ++
      statement "endif" ++ statement "endfor"
    let context : Context :=
      ⟨[("members", .list [.map [("admin", .text "yes"), ("name", .text "a")],
        .map [("admin", .text "")]]), ("note", .text "?")]⟩
    let later := context.bind "open" (.list [.text "x"])
    let node := parse defaultNesting text
    later.Extends context ∧
      (∀ round ∈ node.rounds context, round.Clean) ∧
      node.residual context ≠ node.residual later ∧
      (node.residual context).residual later = node.residual later ∧
      (node.residual context).residual context = node.residual context := by
  intro text context later node
  have grown : later.Extends context := Context.extends_bind rfl _
  have clean : ∀ round ∈ node.rounds context, round.Clean := by decide +kernel
  have different : node.residual context ≠ node.residual later := by decide +kernel
  have fused := residual_fuses node grown clean
  exact ⟨grown, clean, different, fused⟩

end TextTemplate.Expression.Node
