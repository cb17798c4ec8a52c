import Mathlib.Logic.Relation
import TextTemplate.Proofs.DroppedBranches
import TextTemplate.Proofs.Persistence
import TextTemplate.Proofs.ReachableTrees

/-!
# What is visited while a context is applied

What a context leaves of an expression is found by visiting it and, where the context decides a loop
or a conditional, the bodies that follow from that. All visits are listed here, each with the
context it is made under, and each of them adds something of its own to what is left: itself as it
is, the text in its place, what is left of it without its first branches, or nothing. Put together
in the order of the visits these make up everything that is left, but for the sequences around it.
-/

namespace TextTemplate.Expression.Node

open Data Evaluation Markup Text

/-- An expression that is visited, and the context that it is visited under. -/
structure Visit where
  /-- The expression. -/
  node : Node
  /-- The context. -/
  context : Context
  deriving DecidableEq

mutual

/-- All visits that are made for an expression under a context, from left to right. -/
def visits : Node → Context → List Visit
  | .raw text span, context => [⟨.raw text span, context⟩]
  | .invalid text span, context => [⟨.invalid text span, context⟩]
  | .use path span, context => [⟨.use path span, context⟩]
  | .unexpected token, context => [⟨.unexpected token, context⟩]
  | .loop var path opening closing body, context =>
    ⟨.loop var path opening closing body, context⟩ ::
      match (context.resolve? path.parts).bind Value.loopItems? with
      | some items => items.flatMap fun item => body.visits (context.bind var.text item)
      | none => []
  | .choice branches otherwise closing, context =>
    ⟨.choice branches otherwise closing, context⟩ ::
      match decision context (branches.map (·.path)) with
      | .undecided _ => []
      | .taken index => branchVisits index branches context
      | .exhausted => alternativeVisits otherwise context
  | .concat children, context => ⟨.concat children, context⟩ :: allVisits children context

/-- The visits that are made for the branch at an index. -/
def branchVisits : Nat → List (Branch Node) → Context → List Visit
  | _, [], _ => []
  | 0, ⟨_, _, body⟩ :: _, context => body.visits context
  | index + 1, _ :: more, context => branchVisits index more context

/-- The visits that are made for an alternative. -/
def alternativeVisits : Option (Alternative Node) → Context → List Visit
  | none, _ => []
  | some ⟨_, body⟩, context => body.visits context

/-- The visits that are made for expressions one after the other. -/
def allVisits : List Node → Context → List Visit
  | [], _ => []
  | node :: more, context => node.visits context ++ allVisits more context

end

/-- A branch taken is visited in its body. -/
theorem branchVisits_eq_elim (index : Nat) (branches : List (Branch Node)) (context : Context) :
    branchVisits index branches context =
      branches[index]?.elim [] fun branch => branch.body.visits context := by
  induction branches generalizing index with
  | nil => simp [branchVisits]
  | cons branch more ih => cases index <;> simp [branchVisits, ih]

/-- An alternative taken is visited in its body. -/
theorem alternativeVisits_eq_elim (otherwise : Option (Alternative Node)) (context : Context) :
    alternativeVisits otherwise context =
      otherwise.elim [] fun alternative => alternative.body.visits context := by
  cases otherwise <;> rfl

/-- Expressions in a row are visited one by one. -/
theorem allVisits_eq_flatMap (nodes : List Node) (context : Context) :
    allVisits nodes context = nodes.flatMap (·.visits context) := by
  induction nodes with
  | nil => rfl
  | cons node more ih => rw [allVisits, ih, List.flatMap_cons]

/-- An expression is visited itself. -/
theorem mem_visits_self (node : Node) (context : Context) :
    ⟨node, context⟩ ∈ node.visits context := by
  cases node <;> exact List.mem_cons_self

namespace Visit

/-- What one visit leads to at once: the body of a loop for each of the items, the body of the
branch or the alternative that is taken, the children of a sequence. -/
inductive Leads : Visit → Visit → Prop
  /-- From a loop over items to its body, with an item bound. -/
  | item {var : Ident} {path : Path} {opening closing : Span} {body : Node} {context : Context}
      {items : List Value} {item : Value} :
      (context.resolve? path.parts).bind Value.loopItems? = some items → item ∈ items →
      Leads ⟨.loop var path opening closing body, context⟩ ⟨body, context.bind var.text item⟩
  /-- From a conditional to the branch that it takes. -/
  | branch {branches : List (Branch Node)} {otherwise : Option (Alternative Node)} {closing : Span}
      {context : Context} {index : Nat} {branch : Branch Node} :
      decision context (branches.map (·.path)) = .taken index → branches[index]? = some branch →
      Leads ⟨.choice branches otherwise closing, context⟩ ⟨branch.body, context⟩
  /-- From a conditional of which no condition holds to its alternative. -/
  | alternative {branches : List (Branch Node)} {alternative : Alternative Node} {closing : Span}
      {context : Context} : decision context (branches.map (·.path)) = .exhausted →
      Leads ⟨.choice branches (some alternative) closing, context⟩ ⟨alternative.body, context⟩
  /-- From a sequence to its children. -/
  | child {children : List Node} {child : Node} {context : Context} : child ∈ children →
      Leads ⟨.concat children, context⟩ ⟨child, context⟩

/-- What is visited from a visit that another one leads to is visited from the latter. -/
theorem Leads.visits_subset {first next : Visit} (leads : Leads first next) :
    ∀ visit ∈ next.node.visits next.context, visit ∈ first.node.visits first.context := by
  intro visit member
  cases leads with
  | item found known =>
    rw [visits, found]
    exact List.mem_cons_of_mem _ (List.mem_flatMap.mpr ⟨_, known, member⟩)
  | branch decided found =>
    simp only [visits, decided, branchVisits_eq_elim, found]
    exact List.mem_cons_of_mem _ member
  | alternative decided =>
    simp only [visits, decided, alternativeVisits_eq_elim]
    exact List.mem_cons_of_mem _ member
  | child known =>
    rw [visits, allVisits_eq_flatMap]
    exact List.mem_cons_of_mem _ (List.mem_flatMap.mpr ⟨_, known, member⟩)

/-- What is inside of what a visit leads to is inside of what is visited. -/
theorem Leads.subnodes_subset {first next : Visit} (leads : Leads first next) {inner : Node}
    (inside : inner ∈ next.node.subnodes) : inner ∈ first.node.subnodes := by
  have spreads := spreads_mem_subnodes inner
  cases leads with
  | item _ _ => exact spreads.loop _ _ _ _ inside
  | branch _ found => exact spreads.branch _ _ (List.mem_of_getElem? found) inside
  | alternative _ => exact spreads.alternative _ _ inside
  | child known => exact spreads.concat known inside

end Visit

open Relation

/-- Every visit is led to from the expression itself, one visit after the other. -/
theorem leads_of_mem_visits {node : Node} {context : Context} {visit : Visit}
    (member : visit ∈ node.visits context) : ReflTransGen Visit.Leads ⟨node, context⟩ visit := by
  induction node using inductionOn generalizing context with
  | raw _ _ | invalid _ _ | use _ _ | unexpected _ =>
    obtain rfl := List.mem_singleton.mp member
    exact .refl
  | loop var path opening closing body ih =>
    rcases List.mem_cons.mp member with rfl | inner
    · exact .refl
    · cases found : (context.resolve? path.parts).bind Value.loopItems? with
      | none =>
        rw [found] at inner
        nomatch inner
      | some items =>
        rw [found] at inner
        obtain ⟨item, known, own⟩ := List.mem_flatMap.mp inner
        exact .head (.item found known) (ih own)
  | choice branches otherwise closing bodies last =>
    rcases List.mem_cons.mp member with rfl | inner
    · exact .refl
    · cases decided : decision context (branches.map (·.path)) with
      | undecided index =>
        rw [decided] at inner
        nomatch inner
      | taken index =>
        simp only [decided, branchVisits_eq_elim] at inner
        cases found : branches[index]? with
        | none =>
          rw [found] at inner
          nomatch inner
        | some branch =>
          rw [found] at inner
          exact .head (.branch decided found) (bodies branch (List.mem_of_getElem? found) inner)
      | exhausted =>
        simp only [decided, alternativeVisits_eq_elim] at inner
        cases otherwise with
        | none => nomatch inner
        | some alternative => exact .head (.alternative decided) (last alternative rfl inner)
  | concat children ih =>
    rcases List.mem_cons.mp member with rfl | inner
    · exact .refl
    · rw [allVisits_eq_flatMap] at inner
      obtain ⟨child, known, own⟩ := List.mem_flatMap.mp inner
      exact .head (.child known) (ih child known own)

/-- What a visit leads to, one visit after the other, is among those made for its expression. -/
theorem mem_visits_of_leads {first last : Visit} (led : ReflTransGen Visit.Leads first last) :
    last ∈ first.node.visits first.context := by
  induction led using ReflTransGen.head_induction_on with
  | refl => exact mem_visits_self _ _
  | head leads _ ih => exact leads.visits_subset _ ih

/-- What holds at the start, and is handed on from each visit to those that it leads to, holds of
all visits. -/
theorem forall_mem_visits {node : Node} {context : Context} (holds : Visit → Prop)
    (start : holds ⟨node, context⟩)
    (step : ∀ visit ∈ node.visits context, ∀ next, visit.Leads next → holds visit → holds next) :
    ∀ visit ∈ node.visits context, holds visit := by
  intro visit member
  -- Every visit on the way to this one is among those made, so each step of the way is allowed.
  have led := leads_of_mem_visits member
  clear member
  induction led with
  | refl => exact start
  | tail led leads ih => exact step _ (mem_visits_of_leads led) _ leads ih

/-- What is inside of what is visited is inside of the expression. -/
theorem mem_subnodes_of_visit {node inner : Node} {context : Context} {visit : Visit}
    (member : visit ∈ node.visits context) (inside : inner ∈ visit.node.subnodes) :
    inner ∈ node.subnodes :=
  forall_mem_visits (fun visit => inner ∈ visit.node.subnodes → inner ∈ node.subnodes) id
    (fun _ _ _ leads before own => before (leads.subnodes_subset own)) visit member inside

/-- What a visit itself adds to what is left: a loop or a conditional that is not decided as it is,
without its first branches where these are known to fail, nothing where it is decided, and a text in
the place of a value that is one. -/
def Visit.kept : Visit → List Node
  | ⟨.raw text span, _⟩ => [.raw text span]
  | ⟨.invalid text span, _⟩ => [.invalid text span]
  | ⟨.use path span, context⟩ =>
    match context.resolve? path.parts with
    | some (.text content) => [.raw content span]
    | _ => [.use path span]
  | ⟨.unexpected token, _⟩ => [.unexpected token]
  | ⟨.loop var path opening closing body, context⟩ =>
    match (context.resolve? path.parts).bind Value.loopItems? with
    | some _ => []
    | none => (loop var path opening closing body).subnodes
  | ⟨.choice branches otherwise closing, context⟩ =>
    match decision context (branches.map (·.path)) with
    | .undecided index => (choice (branches.drop index) otherwise closing).subnodes
    | .taken _ | .exhausted => []
  | ⟨.concat _, _⟩ => []

/-- The expressions in a row that are no sequences. -/
def unjoined (nodes : List Node) : List Node := nodes.filter (·.kind ≠ .concat)

/-- Two rows have the expressions of both. -/
theorem unjoined_append (front back : List Node) :
    unjoined (front ++ back) = unjoined front ++ unjoined back :=
  List.filter_append ..

/-- A sequence itself is left out. -/
theorem unjoined_concat_cons (children more : List Node) :
    unjoined (.concat children :: more) = unjoined more :=
  List.filter_cons_of_neg (by simp [kind])

/-- Rows put together have the expressions of each. -/
theorem unjoined_flatMap {α : Type} (items : List α) (row : α → List Node) :
    unjoined (items.flatMap row) = items.flatMap fun item => unjoined (row item) := by
  induction items with
  | nil => rfl
  | cons item more ih => rw [List.flatMap_cons, List.flatMap_cons, unjoined_append, ih]

/-- What is left of an expression is what its visits keep, one after the other. -/
theorem unjoined_subnodes_residual (node : Node) (context : Context) :
    unjoined (node.residual context).subnodes =
      unjoined ((node.visits context).flatMap Visit.kept) := by
  induction node using inductionOn generalizing context with
  | raw _ _ | invalid _ _ | unexpected _ => rfl
  | use path span =>
    have row : (use path span).visits context = [⟨.use path span, context⟩] := rfl
    rw [row, List.flatMap_singleton, residual, Visit.kept]
    cases context.resolve? path.parts with
    | none => rfl
    | some value => cases value <;> rfl
  | loop var path opening closing body ih =>
    rw [residual, visits, List.flatMap_cons, unjoined_append, Visit.kept]
    cases (context.resolve? path.parts).bind Value.loopItems? with
    | none => exact (List.append_nil _).symm
    | some items =>
      -- The sequence that takes the place of the loop is left out on both sides.
      have each (item : Value) := ih (context.bind var.text item)
      simp only [subnodes_concat, unjoined_concat_cons, List.flatMap_map, List.flatMap_assoc,
        unjoined_flatMap items, each]
      rfl
  | choice branches otherwise closing bodies last =>
    rw [residual, visits, List.flatMap_cons, unjoined_append, Visit.kept]
    cases decision context (branches.map (·.path)) with
    | undecided index => exact (List.append_nil _).symm
    | taken index =>
      simp only [residualBranch_eq_elim, branchVisits_eq_elim]
      cases found : branches[index]? with
      | none => rfl
      | some branch => exact bodies branch (List.mem_of_getElem? found) context
    | exhausted =>
      simp only [residualAlternative_eq_elim, alternativeVisits_eq_elim]
      cases otherwise with
      | none => rfl
      | some alternative => exact last alternative rfl context
  | concat children ih =>
    have each (child : Node) (member : child ∈ children) := ih child member context
    rw [residual, visits, List.flatMap_cons, allVisits_eq_flatMap, List.flatMap_assoc,
      residuals_eq_map, subnodes_concat, unjoined_concat_cons, List.flatMap_map, unjoined_flatMap,
      Visit.kept, List.nil_append, unjoined_flatMap]
    exact List.flatMap_congr each

end TextTemplate.Expression.Node
