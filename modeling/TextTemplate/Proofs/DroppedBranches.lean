import TextTemplate.Proofs.ParsedForm
import TextTemplate.Proofs.TagInvariant

/-!
# Branches that are dropped

The first branches of a conditional may be dropped once their conditions are known to fail. The
first branch that is kept gets a new tag then, an if tag in the place of its elif tag. No context
that lets the dropped conditions fail can tell the difference, whatever it knows of the other ones:
it takes the same branch, or is undecided at the same condition. There both evaluations cut again,
and a conditional that is cut twice holds the tags of one that is cut once.
-/

namespace TextTemplate.Evaluation

open Data Markup

/-- The context knows the condition at the path, and it fails. -/
def Fails (context : Context) (path : Path) : Prop :=
  ∃ value, context.resolve? path.parts = some value ∧ value.truthy = false

instance (context : Context) (path : Path) : Decidable (Fails context path) :=
  decidable_of_iff ((context.resolve? path.parts).any fun value => !value.truthy) <| by
    simp [Fails, Option.any_eq_true]

end TextTemplate.Evaluation

namespace TextTemplate.Expression

open Data Evaluation Log Markup Parsing Text

namespace Conditional

variable {α β γ : Type} {conditional cut : Conditional β} {context : Context}

/-- The tag holds a path, at which the context knows a condition that fails. -/
def FailsAt (context : Context) (row : Tagged β) : Prop :=
  ∃ path, row.token.tryPath = .ok path ∧ Fails context path

/-- What is left of a conditional that is cut in front of a branch: that branch behind an if tag of
its own, and everything behind it as it was. -/
theorem fromBranch_of_lt {index : Nat} (inside : index < conditional.branches.length) {path : Path}
    (condition : conditional.branches[index].token.tryPath = .ok path) :
    conditional.fromBranch index = .ok (if index = 0 then conditional else { conditional with
      branches := ⟨⟨.ifStart path, conditional.branches[index].token.span⟩,
        conditional.branches[index].body⟩ :: conditional.branches.drop (index + 1) }) := by
  by_cases whole : index = 0
  · simp only [fromBranch, whole, if_true]
    rfl
  · have found : conditional.branches[index]? = some conditional.branches[index] :=
      List.getElem?_eq_getElem inside
    simp only [fromBranch, whole, if_false, found, condition, Fault.ok_bind]
    rfl

/-- What is left behind some branches that were dropped starts with a branch that holds a path. -/
theorem of_fromBranch_succ {index : Nat} (dropped : conditional.fromBranch (index + 1) = .ok cut) :
    ∃ first path, conditional.branches[index + 1]? = some first ∧
      first.token.tryPath = .ok path ∧ cut = { conditional with
        branches := ⟨⟨.ifStart path, first.token.span⟩, first.body⟩ ::
          conditional.branches.drop (index + 1 + 1) } := by
  simp only [fromBranch, Nat.succ_ne_zero, if_false] at dropped
  cases found : conditional.branches[index + 1]? with
  | none => simp [found] at dropped
  | some first =>
    cases held : first.token.tryPath with
    | error fault => simp [found, held] at dropped
    | ok path =>
      simp only [found, held, Fault.ok_bind] at dropped
      exact ⟨first, path, rfl, held, (Except.ok.inj dropped).symm⟩

/-- Cutting a conditional twice is cutting it once, and the tag put in front is the same. -/
theorem fromBranch_fromBranch {i : Nat} (dropped : conditional.fromBranch i = .ok cut) (j : Nat) :
    cut.fromBranch j = conditional.fromBranch (i + j) := by
  cases i with
  | zero =>
    obtain rfl : conditional = cut := Except.ok.inj dropped
    rw [Nat.zero_add]
  | succ i =>
    cases j with
    | zero => exact dropped.symm
    | succ j =>
      obtain ⟨first, path, -, -, rfl⟩ := of_fromBranch_succ dropped
      have same : (conditional.branches.drop (i + 1 + 1))[j]? =
          conditional.branches[i + 1 + (j + 1)]? := by
        rw [List.getElem?_drop]
        congr 1
        omega
      have later : i + 1 + 1 + (j + 1) = i + 1 + (j + 1) + 1 := by omega
      simp [fromBranch, same, later]

/-- A conditional is cut in the same way, whatever stands behind its tags. -/
theorem fromBranch_map (f : β → γ) {index : Nat}
    (dropped : conditional.fromBranch index = .ok cut) :
    (conditional.map f).fromBranch index = .ok (cut.map f) := by
  cases index with
  | zero =>
    obtain rfl : conditional = cut := Except.ok.inj dropped
    rfl
  | succ index =>
    obtain ⟨first, path, found, held, rfl⟩ := of_fromBranch_succ dropped
    simp [fromBranch, map, found, Tagged.map, held]

variable {undecided : Nat → Except Fault α} {taken : β → Except Fault α}
  {exhausted : Except Fault α}

/-- Branches counted from a later index on are undecided at later indexes. -/
theorem selectFrom_add (index offset : Nat) (rows : List (Tagged β)) :
    selectFrom context undecided taken exhausted (offset + index) rows =
      selectFrom context (fun i => undecided (offset + i)) taken exhausted index rows := by
  induction rows generalizing index with
  | nil => rfl
  | cons row more ih =>
    simp only [selectFrom, ← ih, Nat.add_assoc]

/-- Branches in front whose conditions fail are passed by. -/
theorem selectFrom_of_fails {rows : List (Tagged β)} {count : Nat}
    (fails : ∀ row ∈ rows.take count, FailsAt context row) (inside : count ≤ rows.length)
    (index : Nat) :
    selectFrom context undecided taken exhausted index rows =
      selectFrom context undecided taken exhausted (index + count) (rows.drop count) := by
  induction count generalizing rows index with
  | zero => rfl
  | succ count ih =>
    cases rows with
    | nil => nomatch inside
    | cons row more =>
      rw [List.take_succ_cons, List.forall_mem_cons] at fails
      obtain ⟨⟨path, held, value, known, falsy⟩, others⟩ := fails
      have next := ih others (Nat.le_of_succ_le_succ inside) (index + 1)
      have far : index + 1 + count = index + (count + 1) := by omega
      simp [selectFrom, held, known, falsy, next, far]

/-- What is selected hangs on the tag of a branch only by the path that it holds. -/
theorem selectFrom_cons_congr (row row' : Tagged β) (path : row.token.tryPath = row'.token.tryPath)
    (body : row.body = row'.body) (index : Nat) (more : List (Tagged β)) :
    selectFrom context undecided taken exhausted index (row :: more) =
      selectFrom context undecided taken exhausted index (row' :: more) := by
  simp only [selectFrom, path, body]

/-- Where the conditions in front fail, a context selects the same in a conditional as in what is
left of it without them, or is undecided as much later there. -/
theorem select_of_fails {index : Nat} (inside : index < conditional.branches.length)
    (fails : ∀ row ∈ conditional.branches.take index, FailsAt context row)
    (dropped : conditional.fromBranch index = .ok cut) (nothing : α) :
    conditional.select context undecided taken nothing =
      cut.select context (fun i => undecided (index + i)) taken nothing := by
  cases index with
  | zero =>
    obtain rfl : conditional = cut := Except.ok.inj dropped
    simp only [Nat.zero_add]
  | succ index =>
    obtain ⟨first, path, found, held, rfl⟩ := of_fromBranch_succ dropped
    have own : conditional.branches[index + 1] = first :=
      Option.some.inj ((List.getElem?_eq_getElem inside).symm.trans found)
    have behind : conditional.branches.drop (index + 1) =
        first :: conditional.branches.drop (index + 1 + 1) := by
      rw [List.drop_eq_getElem_cons inside, own]
    have condition : first.token.tryPath = Token.tryPath ⟨.ifStart path, first.token.span⟩ := held
    rw [select, select, selectFrom_of_fails fails (Nat.le_of_lt inside), behind, Nat.zero_add,
      selectFrom_add 0 (index + 1),
      selectFrom_cons_congr first ⟨⟨.ifStart path, first.token.span⟩, first.body⟩ condition rfl]

/-- With other things behind the tags, the conditions in front fail as well. -/
theorem failsAt_map (f : β → γ) {index : Nat}
    (fails : ∀ row ∈ conditional.branches.take index, FailsAt context row) :
    ∀ row ∈ (conditional.map f).branches.take index, FailsAt context row := by
  intro row member
  rw [map, ← List.map_take] at member
  obtain ⟨source, front, rfl⟩ := List.mem_map.mp member
  exact fails source front

end Conditional

namespace Tree

open Conditional

/-- A conditional that is an expression is cut like any other. -/
theorem fromBranch?_ofConditional {conditional cut : Conditional Tree} {index : Nat}
    (dropped : conditional.fromBranch index = .ok cut) :
    (ofConditional conditional).fromBranch? index = some (.ok (ofConditional cut)) := by
  rw [ofConditional, fromBranch?, dropped]
  rfl

section

variable {conditional cut : Conditional Tree} {context : Context} {index : Nat}
  (inside : index < conditional.branches.length)
  (fails : ∀ row ∈ conditional.branches.take index, FailsAt context row)
  (dropped : conditional.fromBranch index = .ok cut)

include inside fails dropped

/-- Branches whose conditions fail may be dropped before a conditional is written out. -/
theorem render_of_fails :
    (ofConditional cut).render context = (ofConditional conditional).render context := by
  have behind := fromBranch_map (·.render context) dropped
  have within : index < (conditional.map (·.render context)).branches.length := by
    rwa [Conditional.map, List.length_map]
  rw [render_ofConditional, render_ofConditional]
  dsimp only
  rw [select_of_fails within (failsAt_map _ fails) behind]
  simp only [fromBranch_fromBranch behind]

/-- Branches whose conditions fail may be dropped before it is asked what is left. -/
theorem residual_of_fails :
    (ofConditional cut).residual context = (ofConditional conditional).residual context := by
  have behind := fromBranch_map (·.residual context) dropped
  have within : index < (conditional.map (·.residual context)).branches.length := by
    rwa [Conditional.map, List.length_map]
  rw [residual_ofConditional, residual_ofConditional,
    select_of_fails within (failsAt_map _ fails) behind]
  simp only [fromBranch_fromBranch dropped]

end

end Tree

section

variable {branches : List (Tagged Tree)} {otherwise : Option (Tagged Tree)} {closer : Token}

/-- The tags of a well-tagged conditional are an if tag, elif tags, perhaps an else tag, and an
endif tag. -/
theorem WellTagged.map_kind_tags (well : WellTagged (.choice branches otherwise closer)) :
    (Conditional.tags ⟨branches, otherwise, closer⟩).map Token.kind =
      Node.conditionalKinds (branches.length - 1) otherwise.isSome := by
  cases well with
  | @choice first more _ _ opens continues ends closes _ _ _ =>
    have further : more.map (fun row => row.token.kind) = List.replicate more.length .elifTag :=
      List.map_eq_replicate_iff.mpr continues
    have closing : closer.kind = .ifEnd := by
      rw [Token.kind, closes]
      rfl
    cases otherwise with
    | none =>
      simp [Conditional.tags, Node.conditionalKinds, Function.comp_def, opens, further, closing]
    | some last =>
      have alternative : last.token.kind = .elseTag := by
        rw [Token.kind, ends last rfl]
        rfl
      simp [Conditional.tags, Node.conditionalKinds, Function.comp_def, opens, further, closing,
        alternative]

/-- In front of every branch of a well-tagged conditional stands a tag with a path, and an if tag in
front of the first one. -/
theorem WellTagged.condition (well : WellTagged (.choice branches otherwise closer)) {index : Nat}
    (inside : index < branches.length) :
    ∃ path, branches[index].token.tryPath = .ok path ∧
      (index = 0 → branches[index].token.lexeme = .ifStart path) := by
  cases well with
  | @choice first more _ _ opens continues ends closes _ _ _ =>
    cases index with
    | zero =>
      obtain ⟨path, held⟩ := exists_ifStart opens
      refine ⟨path, ?_, fun _ => held⟩
      rw [List.getElem_cons_zero, Token.tryPath, held]
      rfl
    | succ index =>
      have within : index < more.length := Nat.lt_of_succ_lt_succ inside
      obtain ⟨path, held⟩ := exists_elifTag (continues _ (List.getElem_mem within))
      refine ⟨path, ?_, fun first => absurd first (Nat.succ_ne_zero index)⟩
      rw [List.getElem_cons_succ, Token.tryPath, held]
      rfl

/-- A well-tagged conditional may be cut in front of each of its branches, which stands behind an if
tag then, if it did not before. -/
theorem WellTagged.fromBranch_eq (well : WellTagged (.choice branches otherwise closer))
    {index : Nat} (inside : index < branches.length) :
    ∃ path, branches[index].token.tryPath = .ok path ∧
      Conditional.fromBranch index ⟨branches, otherwise, closer⟩ =
        .ok ⟨⟨⟨.ifStart path, branches[index].token.span⟩, branches[index].body⟩ ::
          branches.drop (index + 1), otherwise, closer⟩ := by
  obtain ⟨path, condition, opens⟩ := well.condition inside
  refine ⟨path, condition, ?_⟩
  have cut : Conditional.fromBranch index ⟨branches, otherwise, closer⟩ = _ :=
    Conditional.fromBranch_of_lt inside condition
  rw [cut]
  by_cases whole : index = 0
  · subst whole
    have tag : (⟨.ifStart path, branches[0].token.span⟩ : Token) = branches[0].token := by
      rw [← opens rfl]
    rw [if_pos rfl, tag]
    congr 2
    exact List.drop_eq_getElem_cons inside
  · rw [if_neg whole]

end

namespace Tree

open Conditional

variable {branches : List (Tagged Tree)} {otherwise : Option (Tagged Tree)} {closer : Token}

/-- Dropping branches is invisible. A conditional that can be reached may be cut in front of each of
its branches, and cutting it twice is cutting it once. What is left has the other branches as they
were, the first one behind a new if tag with the path and the place of the tag it had, and the same
alternative and closing tag; so its tags are again an if tag, elif tags, perhaps an else tag, and an
endif tag. Under every context in which the conditions in front fail, be it with empty texts or with
empty collections, it gives the same text and leaves the same, all tags and places included: the
other conditions may hold, fail or be unknown in any order. -/
theorem Reachable.dropped_branches_invisible
    (reachable : Reachable (.choice branches otherwise closer)) :
    let tree := Tree.choice branches otherwise closer
    (∀ i j, i + j < branches.length → ∃ left cut, tree.fromBranch? i = some (.ok left) ∧
      left.fromBranch? j = some (.ok cut) ∧ tree.fromBranch? (i + j) = some (.ok cut)) ∧
    ∀ i (inside : i < branches.length), ∃ path kept,
      branches[i].token.tryPath = .ok path ∧
      kept = ⟨⟨.ifStart path, branches[i].token.span⟩, branches[i].body⟩ :: branches.drop (i + 1) ∧
      tree.fromBranch? i = some (.ok (.choice kept otherwise closer)) ∧
      (Conditional.tags ⟨kept, otherwise, closer⟩).map Token.kind =
        Node.conditionalKinds (branches.length - (i + 1)) otherwise.isSome ∧
      ∀ context, (∀ row ∈ branches.take i, FailsAt context row) →
        (∃ text, (Tree.choice kept otherwise closer).render context = .ok text ∧
          tree.render context = .ok text) ∧
        ∃ left, (Tree.choice kept otherwise closer).residual context = .ok left ∧
          tree.residual context = .ok left := by
  intro tree
  refine ⟨fun i j inside => ?_, fun i inside => ?_⟩
  · have front : i < branches.length := Nat.lt_of_le_of_lt (Nat.le_add_right i j) inside
    obtain ⟨_, -, once⟩ := reachable.wellTagged.fromBranch_eq front
    obtain ⟨_, -, whole⟩ := reachable.wellTagged.fromBranch_eq inside
    have twice := (Conditional.fromBranch_fromBranch once j).trans whole
    exact ⟨_, _, fromBranch?_ofConditional once, fromBranch?_ofConditional twice,
      fromBranch?_ofConditional whole⟩
  · obtain ⟨path, condition, dropped⟩ := reachable.wellTagged.fromBranch_eq inside
    have cut := fromBranch?_ofConditional dropped
    have kinds := (reachable.wellTagged.fromBranch cut).map_kind_tags
    refine ⟨path, _, condition, rfl, cut, ?_, fun context fails => ⟨?_, ?_⟩⟩
    · rwa [List.length_cons, List.length_drop, Nat.add_sub_cancel] at kinds
    · obtain ⟨text, written⟩ := reachable.wellTagged.render context
      exact ⟨text, (render_of_fails inside fails dropped).trans written, written⟩
    · obtain ⟨left, leaves, -⟩ := reachable.wellTagged.residual context
      exact ⟨left, (residual_of_fails inside fails dropped).trans leaves, leaves⟩

/-- An empty text and an empty list in front fail, an unknown condition follows, and the last one
holds. So the conditional is undecided from its third branch on, with the first two dropped or
not. -/
theorem Reachable.dropped_branches_invisible_before_unknown :
    let place (offset : Nat) (raw : String) : Span :=
      ⟨raw, ⟨offset, 1, offset + 1⟩, ⟨offset + raw.length, 1, offset + raw.length + 1⟩⟩
    let text (offset : Nat) (content : String) : Tree := .raw ⟨.raw content, place offset content⟩
    let branches : List (Tagged Tree) :=
      [⟨⟨.ifStart ⟨"a", [], place 6 "a"⟩, place 0 (statement "if a")⟩, text 10 "1"⟩,
        ⟨⟨.elifTag ⟨"b", ["c"], place 19 "b.c"⟩, place 11 (statement "elif b.c")⟩, text 25 "2"⟩,
        ⟨⟨.elifTag ⟨"d", [], place 34 "d"⟩, place 26 (statement "elif d")⟩, text 38 "3"⟩,
        ⟨⟨.elifTag ⟨"e", [], place 47 "e"⟩, place 39 (statement "elif e")⟩, text 51 "4"⟩]
    let otherwise : Tagged Tree := ⟨⟨.elseTag, place 52 (statement "else")⟩, text 62 "5"⟩
    let closer : Token := ⟨.ifEnd, place 63 (statement "endif")⟩
    let tree := Tree.choice branches (some otherwise) closer
    let context : Context :=
      ⟨[("a", .text ""), ("b", .map [("c", .list [])]), ("e", .list [.text "x"])]⟩
    (∃ records, parseLogged false defaultNesting (statement "if a" ++ "1" ++ statement "elif b.c" ++
      "2" ++ statement "elif d" ++ "3" ++ statement "elif e" ++ "4" ++ statement "else" ++ "5" ++
      statement "endif") = .ok (tree, records)) ∧
    (∀ row ∈ branches.take 2, FailsAt context row) ∧
    (∃ left cut, tree.fromBranch? 1 = some (.ok left) ∧ left.fromBranch? 1 = some (.ok cut) ∧
      tree.fromBranch? 2 = some (.ok cut)) ∧
    ∃ kept, tree.fromBranch? 2 = some (.ok (.choice kept (some otherwise) closer)) ∧
      (Conditional.tags ⟨kept, some otherwise, closer⟩).map Token.kind =
        [.ifStart, .elifTag, .elseTag, .ifEnd] ∧
      (∃ text, (Tree.choice kept (some otherwise) closer).render context = .ok text ∧
        tree.render context = .ok text) ∧
      ∃ left, (Tree.choice kept (some otherwise) closer).residual context = .ok left ∧
        tree.residual context = .ok left := by
  intro place text branches otherwise closer tree context
  let branch (path : Path) (span : Span) (offset : Nat) (content : String) : Branch Node :=
    ⟨path, span, .raw content (place offset content)⟩
  have parsed : parse defaultNesting (statement "if a" ++ "1" ++ statement "elif b.c" ++
      "2" ++ statement "elif d" ++ "3" ++ statement "elif e" ++ "4" ++ statement "else" ++ "5" ++
      statement "endif") =
      .choice [branch ⟨"a", [], place 6 "a"⟩ (place 0 (statement "if a")) 10 "1",
        branch ⟨"b", ["c"], place 19 "b.c"⟩ (place 11 (statement "elif b.c")) 25 "2",
        branch ⟨"d", [], place 34 "d"⟩ (place 26 (statement "elif d")) 38 "3",
        branch ⟨"e", [], place 47 "e"⟩ (place 39 (statement "elif e")) 51 "4"]
        (some ⟨place 52 (statement "else"), .raw "5" (place 62 "5")⟩)
        (place 63 (statement "endif")) := by
    decide +kernel
  have read := parseLogged_eq false defaultNesting (statement "if a" ++ "1" ++
    statement "elif b.c" ++ "2" ++ statement "elif d" ++ "3" ++ statement "elif e" ++ "4" ++
    statement "else" ++ "5" ++ statement "endif")
  rw [parsed] at read
  have fails : ∀ row ∈ branches.take 2, FailsAt context row := by
    intro row member
    have either : row = branches[0] ∨ row = branches[1] := by simpa [branches] using member
    rcases either with rfl | rfl
    · exact ⟨_, rfl, by decide⟩
    · exact ⟨_, rfl, by decide⟩
  obtain ⟨cuts, keeps⟩ := Reachable.dropped_branches_invisible (.parsed read)
  obtain ⟨path, kept, -, -, dropped, kinds, evaluates⟩ := keeps 2 (by decide)
  exact ⟨⟨_, read⟩, fails, cuts 1 1 (by decide), kept, dropped, kinds, evaluates context fails⟩

end Tree

end TextTemplate.Expression
