import TextTemplate.Proofs.Mentions
import TextTemplate.Proofs.ParsedTrees
import TextTemplate.Proofs.UndecidedTrees

/-!
# Trees that can be reached from parsed ones

From a parsed tree others are reached by leaving what a context cannot decide, by dropping the first
branches of a conditional, and by going into a part. All of them have a first condition wherever
they have a conditional. So a context that knows none of the paths they mention decides nothing of
them.
-/

namespace TextTemplate.Expression

open Data Evaluation Markup Text

/-- The expressions that can be reached from the trees of texts. -/
inductive Reachable : Node → Prop
  /-- The tree of a text. -/
  | parsed (limit : Int) (text : String) : Reachable (parse limit text)
  /-- What a context leaves of a reachable expression. -/
  | residual {node : Node} (context : Context) : Reachable node →
      Reachable (node.residual context)
  /-- What remains of a reachable conditional once its first branches are dropped. -/
  | fromBranch {node left : Node} (index : Nat) : Reachable node →
      node.fromBranch? index = some (.ok left) → Reachable left
  /-- A child of a reachable sequence, or the body of a branch or of a loop. -/
  | part {node inner : Node} (index : Nat) : Reachable node →
      node.part? index = some (.ok inner) → Reachable inner
  /-- The body of the alternative of a reachable conditional. -/
  | alternative {node inner : Node} : Reachable node → node.alternative? = some inner →
      Reachable inner

namespace Node

/-- Whether the expression, if it is a conditional, has a branch. -/
def HasBranch : Node → Prop
  | .choice branches _ _ => branches ≠ []
  | .raw _ _ | .invalid _ _ | .use _ _ | .unexpected _ | .loop _ _ _ _ _ | .concat _ => True

/-- Whether every conditional inside the expression has a branch. -/
def Branched (node : Node) : Prop := node.Throughout HasBranch

/-- Everything built while parsing has a branch wherever it has a conditional. -/
theorem inherited_branched : Inherited Branched where
  raw _ _ := (throughout_raw ..).mpr trivial
  invalid _ _ := (throughout_invalid ..).mpr trivial
  use _ _ := (throughout_use ..).mpr trivial
  unexpected _ := (throughout_unexpected ..).mpr trivial
  loop _ _ _ _ _ own := (throughout_loop ..).mpr ⟨trivial, own⟩
  choice _ _ _ nonempty bodies last := (throughout_choice ..).mpr ⟨nonempty, bodies, last⟩
  concat _ each := (throughout_concat ..).mpr ⟨trivial, each⟩

/-- A conditional that is undecided is so at one of its branches. -/
theorem lt_of_decision_undecided {context : Context} {paths : List Path} {index : Nat}
    (unknown : decision context paths = .undecided index) : index < paths.length := by
  induction paths generalizing index with
  | nil => nomatch unknown
  | cons path more ih =>
    cases found : context.resolve? path.parts with
    | none =>
      rw [decision_of_unknown found] at unknown
      obtain rfl := Decision.undecided.inj unknown
      exact Nat.zero_lt_succ _
    | some value =>
      by_cases holds : value.truthy
      · rw [decision_of_holds found holds] at unknown
        nomatch unknown
      · rw [decision_of_fails found holds] at unknown
        obtain ⟨before, later, rfl⟩ := Decision.next_eq_undecided.mp unknown
        exact Nat.succ_lt_succ (ih later)

/-- A conditional without some of its first branches has a branch, as long as one is left. -/
theorem Branched.drop {branches : List (Branch Node)} {otherwise : Option (Alternative Node)}
    {closing : Span} (branched : (choice branches otherwise closing).Branched) {index : Nat}
    (left : index < branches.length) :
    (choice (branches.drop index) otherwise closing).Branched := by
  obtain ⟨-, bodies, last⟩ := (throughout_choice ..).mp branched
  have nonempty : branches.drop index ≠ [] := by
    rw [ne_eq, List.drop_eq_nil_iff]
    omega
  exact (throughout_choice ..).mpr
    ⟨nonempty, fun branch member => bodies branch (List.mem_of_mem_drop member), last⟩

/-- A sequence of expressions with a branch in every conditional is one. -/
theorem branched_concat {children : List Node} (each : ∀ child ∈ children, child.Branched) :
    (concat children).Branched :=
  (throughout_concat ..).mpr ⟨trivial, each⟩

/-- What a context leaves has a branch wherever it has a conditional. -/
theorem Branched.residual {node : Node} (branched : node.Branched) (context : Context) :
    (node.residual context).Branched := by
  induction node using inductionOn generalizing context with
  | raw text span => exact branched
  | invalid text span => exact branched
  | unexpected token => exact branched
  | use path span =>
    rw [Node.residual]
    split
    · exact (throughout_raw ..).mpr trivial
    · exact branched
  | loop var path opening closing body ih =>
    obtain ⟨-, inside⟩ := (throughout_loop ..).mp branched
    rw [Node.residual]
    split
    · next items found =>
      refine branched_concat fun child member => ?_
      obtain ⟨item, -, rfl⟩ := List.mem_map.mp member
      exact ih inside _
    · exact branched
  | choice branches otherwise closing bodies last =>
    obtain ⟨-, inBranches, inLast⟩ := (throughout_choice ..).mp branched
    have nothing : (concat []).Branched := branched_concat (List.forall_mem_nil _)
    rw [Node.residual]
    cases decided : decision context (branches.map (·.path)) with
    | undecided index =>
      have left := lt_of_decision_undecided decided
      rw [List.length_map] at left
      exact branched.drop left
    | taken index =>
      simp only [residualBranch_eq_elim]
      cases found : branches[index]? with
      | none => exact nothing
      | some branch =>
        have member := List.mem_of_getElem? found
        exact bodies branch member (inBranches branch member) context
    | exhausted =>
      cases otherwise with
      | none => exact nothing
      | some alternative => exact last alternative rfl (inLast alternative rfl) context
  | concat children ih =>
    obtain ⟨-, inside⟩ := (throughout_concat ..).mp branched
    rw [Node.residual, residuals_eq_map]
    refine branched_concat fun child member => ?_
    obtain ⟨source, known, rfl⟩ := List.mem_map.mp member
    exact ih source known (inside source known) context

/-- What remains once the first branches of a conditional are dropped has a branch. -/
theorem Branched.fromBranch {node left : Node} (branched : node.Branched) {index : Nat}
    (dropped : node.fromBranch? index = some (.ok left)) : left.Branched := by
  cases node with
  | choice branches otherwise closing =>
    simp only [fromBranch?, Option.some.injEq] at dropped
    split at dropped
    · next inside =>
      obtain rfl := Except.ok.inj dropped
      rcases inside with rfl | inside
      · exact branched
      · exact branched.drop inside
    · nomatch dropped
  | raw _ _ | invalid _ _ | use _ _ | unexpected _ | loop _ _ _ _ _ | concat _ => nomatch dropped

/-- The parts of an expression have a branch wherever they have a conditional. -/
theorem Branched.part {node inner : Node} (branched : node.Branched) {index : Nat}
    (found : node.part? index = some (.ok inner)) : inner.Branched := by
  cases node with
  | concat children =>
    obtain ⟨-, inside⟩ := (throughout_concat ..).mp branched
    cases known : children[index]? with
    | none => simp [part?, known] at found
    | some child =>
      have same : child = inner := by simpa [part?, known] using found
      exact same ▸ inside child (List.mem_of_getElem? known)
  | choice branches otherwise closing =>
    obtain ⟨-, inside, -⟩ := (throughout_choice ..).mp branched
    cases known : branches[index]? with
    | none => simp [part?, known] at found
    | some branch =>
      have same : branch.body = inner := by simpa [part?, known] using found
      exact same ▸ inside branch (List.mem_of_getElem? known)
  | loop var path opening closing body =>
    obtain ⟨-, inside⟩ := (throughout_loop ..).mp branched
    have same : body = inner := by simpa [part?] using found
    exact same ▸ inside
  | raw _ _ | invalid _ _ | use _ _ | unexpected _ => nomatch found

/-- The alternative of a conditional has a branch wherever it has a conditional. -/
theorem Branched.alternative {node inner : Node} (branched : node.Branched)
    (found : node.alternative? = some inner) : inner.Branched := by
  cases node with
  | choice branches otherwise closing =>
    obtain ⟨-, -, inside⟩ := (throughout_choice ..).mp branched
    obtain ⟨alternative, same, rfl⟩ := Option.map_eq_some_iff.mp found
    exact inside alternative same
  | raw _ _ | invalid _ _ | use _ _ | unexpected _ | loop _ _ _ _ _ | concat _ => nomatch found

end Node

/-- Reachable expressions have a branch wherever they have a conditional. -/
theorem Reachable.branched {node : Node} (reachable : Reachable node) : node.Branched := by
  induction reachable with
  | parsed limit text => exact Node.inherited_branched.parse limit text
  | residual context _ ih => exact ih.residual context
  | fromBranch index _ dropped ih => exact ih.fromBranch dropped
  | part index _ found ih => exact ih.part found
  | alternative _ found ih => exact ih.alternative found

namespace Node

/-- A context that knows none of the paths mentioned decides nothing. -/
theorem Branched.undecided {node : Node} {context : Context} (branched : node.Branched)
    (unknown : ∀ path ∈ node.mentions, context.resolve? path.parts = none) :
    node.Undecided context := by
  induction node using inductionOn with
  | raw text span => exact (throughout_raw ..).mpr trivial
  | invalid text span => exact (throughout_invalid ..).mpr trivial
  | unexpected token => exact (throughout_unexpected ..).mpr trivial
  | use path span =>
    refine (throughout_use ..).mpr fun content found => ?_
    rw [unknown path (by simp [mentions])] at found
    contradiction
  | loop var path opening closing body ih =>
    obtain ⟨-, inside⟩ := (throughout_loop ..).mp branched
    have target : context.resolve? path.parts = none := unknown path (by simp [mentions])
    have items : (context.resolve? path.parts).bind Value.loopItems? = none := by
      rw [target, Option.bind_none]
    exact (throughout_loop ..).mpr
      ⟨items, ih inside fun p member => unknown p (by simp [mentions, member])⟩
  | choice branches otherwise closing bodies last =>
    obtain ⟨nonempty, inBranches, inLast⟩ := (throughout_choice ..).mp branched
    refine (throughout_choice ..).mpr ⟨?_, fun branch member => ?_, fun alternative same => ?_⟩
    · cases branches with
      | nil => exact absurd rfl nonempty
      | cons branch more =>
        exact decision_of_unknown (unknown branch.path (by simp [mentions, branchMentions])) _
    · exact bodies branch member (inBranches branch member) fun path inside =>
        unknown path (mem_mentions_of_branch member inside otherwise closing)
    · exact last alternative same (inLast alternative same) fun path inside =>
        unknown path (same ▸ mem_mentions_of_alternative inside branches closing)
  | concat children ih =>
    obtain ⟨-, inside⟩ := (throughout_concat ..).mp branched
    exact (throughout_concat ..).mpr ⟨trivial, fun child member =>
      ih child member (inside child member) fun path own =>
        unknown path (mem_mentions_of_child member own)⟩

end Node

end TextTemplate.Expression
