import Mathlib.Data.Set.List
import TextTemplate.Proofs.DescentAgreement
import TextTemplate.Proofs.ReachableTrees
import TextTemplate.Proofs.SpanIndependence

/-!
# The tag invariant of reachable trees

From the trees that the descent reads, others are reached by leaving what a context cannot decide,
by cutting conditionals and by going into a part. The shape of a tree forgets its tokens, but an
undecided construct is written out with the tags that it holds. So evaluation hangs on an invariant:
every tree that can be reached is well-tagged. The descent establishes it, and leaving and cutting
preserve it, which keep some tags and put one new tag in front. Trees that keep the invariant stand
for expressions without tags, and that those are evaluated by their shape carries over.
-/

namespace TextTemplate.Expression

open Conditional Data Log Markup Node Parsing Text

/-- Where every member of a row is made by `f` of something good, the row is made of a row of good
ones. -/
theorem exists_map_eq {α β : Type} {good : α → Prop} {f : α → β} {row : List β}
    (each : ∀ member ∈ row, ∃ source, good source ∧ f source = member) :
    ∃ sources : List α, (∀ source ∈ sources, good source) ∧ sources.map f = row := by
  have inRange : row ∈ Set.range (List.map fun source : { source // good source } => f source) := by
    rw [Set.range_list_map]
    intro member inside
    obtain ⟨source, isGood, same⟩ := each member inside
    exact ⟨⟨source, isGood⟩, same⟩
  obtain ⟨sources, rfl⟩ := inRange
  refine ⟨sources.map (·.val), fun source member => ?_, by rw [List.map_map]; rfl⟩
  obtain ⟨found, -, rfl⟩ := List.mem_map.mp member
  exact found.property

/-- A tag in front of the first branch is one that the place asks for. -/
theorem exists_ifStart {token : Token} (opens : token.kind = .ifStart) :
    ∃ path, token.lexeme = .ifStart path := by
  obtain ⟨lexeme, span⟩ := token
  cases lexeme with
  | ifStart path => exact ⟨path, rfl⟩
  | raw _ | invalid _ | use _ | forStart _ _ | forEnd | elifTag _ | elseTag | ifEnd | endOfText =>
    nomatch opens

/-- A tag in front of a later branch is one that the place asks for. -/
theorem exists_elifTag {token : Token} (continues : token.kind = .elifTag) :
    ∃ path, token.lexeme = .elifTag path := by
  obtain ⟨lexeme, span⟩ := token
  cases lexeme with
  | elifTag path => exact ⟨path, rfl⟩
  | raw _ | invalid _ | use _ | forStart _ _ | forEnd | ifStart _ | elseTag | ifEnd | endOfText =>
    nomatch continues

/-- A well-tagged tree is an expression with its tags put on. -/
theorem WellTagged.exists_dress {tree : Tree} (well : WellTagged tree) :
    ∃ node : Node, node.Branched ∧ node.dress = tree := by
  induction well with
  | raw text span => exact ⟨.raw text span, (throughout_raw ..).mpr trivial, rfl⟩
  | invalid text span => exact ⟨.invalid text span, (throughout_invalid ..).mpr trivial, rfl⟩
  | use path span => exact ⟨.use path span, (throughout_use ..).mpr trivial, rfl⟩
  | unexpected token => exact ⟨.unexpected token, (throughout_unexpected ..).mpr trivial, rfl⟩
  | @loop var path opener closer body opens closes _ ih =>
    obtain ⟨node, branched, rfl⟩ := ih
    obtain ⟨_, opening⟩ := opener
    obtain ⟨_, closing⟩ := closer
    subst opens closes
    exact ⟨.loop var path opening closing node, (throughout_loop ..).mpr ⟨trivial, branched⟩, rfl⟩
  | @choice first more otherwise closer opens continues ends closes _ _ _ ihFirst ihMore ihLast =>
    obtain ⟨⟨lexeme, span⟩, body⟩ := first
    obtain ⟨_, closing⟩ := closer
    obtain ⟨path, rfl⟩ := exists_ifStart opens
    subst closes
    obtain ⟨node, branched, rfl⟩ := ihFirst
    have later : ∀ row ∈ more, ∃ branch : Branch Node, branch.body.Branched ∧
        (⟨⟨.elifTag branch.path, branch.span⟩, branch.body.dress⟩ : Tagged Tree) = row := by
      rintro ⟨⟨lexeme, place⟩, body⟩ member
      obtain ⟨inner, good, rfl⟩ := ihMore _ member
      obtain ⟨condition, rfl⟩ := exists_elifTag (continues _ member)
      exact ⟨⟨condition, place, inner⟩, good, rfl⟩
    obtain ⟨branches, inMore, rfl⟩ := exists_map_eq later
    have behind : ∃ last : Option (Alternative Node),
        (∀ alternative, last = some alternative → alternative.body.Branched) ∧
        last.map (fun own => (⟨⟨.elseTag, own.span⟩, own.body.dress⟩ : Tagged Tree)) =
          otherwise := by
      cases otherwise with
      | none => exact ⟨none, (fun _ none => nomatch none), rfl⟩
      | some row =>
        obtain ⟨⟨lexeme, place⟩, body⟩ := row
        obtain ⟨inner, good, rfl⟩ := ihLast _ rfl
        obtain rfl : lexeme = .elseTag := ends _ rfl
        exact ⟨some ⟨place, inner⟩, fun _ same => Option.some.inj same ▸ good, rfl⟩
    obtain ⟨last, inLast, rfl⟩ := behind
    refine ⟨.choice (⟨path, span, node⟩ :: branches) last closing,
      (throughout_choice ..).mpr ⟨List.cons_ne_nil _ _, ?_, inLast⟩, ?_⟩
    · exact List.forall_mem_cons.mpr ⟨branched, inMore⟩
    · rw [dress_choice]
      simp [Tree.ofConditional, Conditional.map, ofParts, tagged, Tagged.map, Function.comp_def]
  | @concat children _ ih =>
    obtain ⟨nodes, branched, rfl⟩ := exists_map_eq ih
    exact ⟨.concat nodes, branched_concat branched, by rw [dress, dressAll_eq_map]⟩

/-- What an expression with its tags put on gives, if it gives anything, was given its tags. -/
theorem exists_dress_of_map {found : Option (Except Misuse Node)} {tree : Tree}
    (same : (found.map fun inner => (inner.mapError .misuse).map dress) =
      some (.ok tree : Except Fault Tree)) :
    ∃ inner, found = some (.ok inner) ∧ inner.dress = tree := by
  obtain ⟨outcome, rfl, kept⟩ := Option.map_eq_some_iff.mp same
  cases outcome with
  | error misuse => nomatch kept
  | ok inner => exact ⟨inner, rfl, Except.ok.inj kept⟩

namespace WellTagged

variable {tree : Tree}

/-- Whatever a context leaves of a well-tagged tree is well-tagged, and it leaves something. -/
theorem residual (well : WellTagged tree) (context : Context) :
    ∃ left, tree.residual context = .ok left ∧ WellTagged left := by
  obtain ⟨node, branched, rfl⟩ := well.exists_dress
  exact ⟨_, residual_dress node context, (branched.residual context).wellTagged_dress⟩

/-- Nothing is refused while a well-tagged tree is written out. -/
theorem render (well : WellTagged tree) (context : Context) :
    ∃ text, tree.render context = .ok text := by
  obtain ⟨node, -, rfl⟩ := well.exists_dress
  exact ⟨_, render_dress node context⟩

/-- A well-tagged conditional that is cut and tagged anew is well-tagged. -/
theorem fromBranch (well : WellTagged tree) {index : Nat} {left : Tree}
    (dropped : tree.fromBranch? index = some (.ok left)) : WellTagged left := by
  obtain ⟨node, branched, rfl⟩ := well.exists_dress
  rw [fromBranch?_dress] at dropped
  obtain ⟨inner, found, rfl⟩ := exists_dress_of_map dropped
  exact (branched.fromBranch found).wellTagged_dress

/-- The parts of a well-tagged tree are well-tagged. -/
theorem part (well : WellTagged tree) {index : Nat} {inner : Tree}
    (found : tree.part? index = some (.ok inner)) : WellTagged inner := by
  obtain ⟨node, branched, rfl⟩ := well.exists_dress
  rw [part?_dress] at found
  obtain ⟨inner, known, rfl⟩ := exists_dress_of_map found
  exact (branched.part known).wellTagged_dress

/-- The alternative of a well-tagged conditional is well-tagged. -/
theorem alternative (well : WellTagged tree) {inner : Tree}
    (found : tree.alternative? = some inner) : WellTagged inner := by
  obtain ⟨node, branched, rfl⟩ := well.exists_dress
  rw [alternative?_dress] at found
  obtain ⟨inner, known, rfl⟩ := Option.map_eq_some_iff.mp found
  exact (branched.alternative known).wellTagged_dress

end WellTagged

namespace Tree

/-- The trees that can be reached from the trees of texts. -/
inductive Reachable : Tree → Prop
  /-- The tree that is read from a text. -/
  | parsed {debug : Bool} {limit : Int} {text : String} {tree : Tree} {records : List Record} :
      parseLogged debug limit text = .ok (tree, records) → Reachable tree
  /-- What a context leaves of a reachable tree. -/
  | residual {tree left : Tree} (context : Context) : Reachable tree →
      tree.residual context = .ok left → Reachable left
  /-- What remains of a reachable conditional once its first branches are dropped. -/
  | fromBranch {tree left : Tree} (index : Nat) : Reachable tree →
      tree.fromBranch? index = some (.ok left) → Reachable left
  /-- A child of a reachable sequence, or the body of a branch or of a loop. -/
  | part {tree inner : Tree} (index : Nat) : Reachable tree →
      tree.part? index = some (.ok inner) → Reachable inner
  /-- The body of the alternative of a reachable conditional. -/
  | alternative {tree inner : Tree} : Reachable tree → tree.alternative? = some inner →
      Reachable inner

namespace Reachable

variable {tree other : Tree}

/-- Every tree that can be reached is well-tagged. -/
theorem wellTagged (reachable : tree.Reachable) : WellTagged tree := by
  induction reachable with
  | @parsed debug limit text tree records read =>
    rw [parseLogged_eq] at read
    obtain ⟨rfl, -⟩ := Prod.mk.inj (Except.ok.inj read)
    exact (inherited_branched.parse limit text).wellTagged_dress
  | residual context _ left ih =>
    obtain ⟨known, same, well⟩ := ih.residual context
    exact Except.ok.inj (same.symm.trans left) ▸ well
  | fromBranch index _ dropped ih => exact ih.fromBranch dropped
  | part index _ found ih => exact ih.part found
  | alternative _ found ih => exact ih.alternative found

/-- Places never influence evaluation, though undecided constructs are written out with the tokens
that they hold. Any two trees of one shape, however they were reached from the trees of any two
texts, hang on contexts alike, give the same text under every context, and leave trees of one shape
under every context; and none of that is ever refused. -/
theorem evaluates_by_shape (reachable : tree.Reachable) (reached : other.Reachable)
    (same : tree.shape = other.shape) :
    (∃ shape, tree.shape = .ok shape) ∧ tree.isFree = other.isFree ∧
    ∀ context : Context,
      (∃ text, tree.render context = .ok text ∧ other.render context = .ok text) ∧
      ∃ left left' shape, tree.residual context = .ok left ∧ other.residual context = .ok left' ∧
        left.shape = .ok shape ∧ left'.shape = .ok shape := by
  obtain ⟨node, -, rfl⟩ := reachable.wellTagged.exists_dress
  obtain ⟨node', -, rfl⟩ := reached.wellTagged.exists_dress
  rw [shape_dress, shape_dress] at same
  have alike : node.shape = node'.shape := Except.ok.inj same
  refine ⟨⟨_, shape_dress node⟩, ?_, fun context =>
    ⟨⟨node.render context, render_dress node context, ?_⟩, ?_⟩⟩
  · rw [isFree_dress, isFree_dress]
    exact node.isFree_of_shape node' alike
  · rw [render_dress]
    exact congrArg _ (node.render_of_shape context node' alike).symm
  · refine ⟨_, _, (node.residual context).shape, residual_dress node context,
      residual_dress node' context, shape_dress _, ?_⟩
    rw [shape_dress]
    exact congrArg _ (node.residual_of_shape context node' alike).symm

/-- A conditional was cut in front of its second branch, so an if tag stands in the place of the
elif tag. It has the shape of one that was written with an if tag at once, at another place and with
other blanks. -/
theorem evaluates_by_shape_behind_new_tag :
    ∃ (read cut other : Tree) (records records' : List Record),
      parseLogged true defaultNesting (statement "if a" ++ "x" ++ statement "elif b" ++
        interpolation "y.z" ++ statement "endif") = .ok (read, records) ∧
      read.residual ⟨[("a", .list [])]⟩ = .ok cut ∧
      parseLogged false defaultNesting (statement "if\nb" ++ interpolation " y.z" ++
        statement "endif") = .ok (other, records') ∧
      cut.tags? ≠ other.tags? ∧ cut.shape = other.shape ∧ cut.isFree = other.isFree ∧
      ∀ context : Context,
        (∃ text, cut.render context = .ok text ∧ other.render context = .ok text) ∧
        ∃ left left' shape, cut.residual context = .ok left ∧ other.residual context = .ok left' ∧
          left.shape = .ok shape ∧ left'.shape = .ok shape := by
  have read := parseLogged_eq true defaultNesting (statement "if a" ++ "x" ++ statement "elif b" ++
    interpolation "y.z" ++ statement "endif")
  have left := residual_dress (parse defaultNesting (statement "if a" ++ "x" ++
    statement "elif b" ++ interpolation "y.z" ++ statement "endif")) ⟨[("a", .list [])]⟩
  have other := parseLogged_eq false defaultNesting (statement "if\nb" ++ interpolation " y.z" ++
    statement "endif")
  have same : ((parse defaultNesting (statement "if a" ++ "x" ++ statement "elif b" ++
      interpolation "y.z" ++ statement "endif")).residual ⟨[("a", .list [])]⟩).dress.shape =
      (parse defaultNesting (statement "if\nb" ++ interpolation " y.z" ++
        statement "endif")).dress.shape := by
    rw [shape_dress, shape_dress]
    exact congrArg _ (by decide +kernel)
  obtain ⟨-, free, evaluates⟩ :=
    evaluates_by_shape (.residual _ (.parsed read) left) (.parsed other) same
  exact ⟨_, _, _, _, _, read, left, other, by decide +kernel, same, free, evaluates⟩

end Reachable

end Tree

end TextTemplate.Expression
