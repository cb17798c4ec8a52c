import TextTemplate.Proofs.Subnodes

/-!
# The grammar of blocks

A well-formed template is a row of blocks. A block is a token that stands for itself, a loop around
a row of blocks, or a conditional: an if tag, any number of elif tags, at most one else tag and an
endif tag, each but the last in front of a row of blocks. A derivation of the grammar is kept as
data; it yields the tokens it derives, has a depth of nesting, and shows the tree it stands for.
-/

namespace TextTemplate.Expression

open Text Markup

/-- A derivation of one block. -/
inductive Block where
  /-- Literal text. -/
  | raw (text : String) (span : Span)
  /-- A statement tag that could not be read. -/
  | invalid (text : String) (span : Span)
  /-- The place of a value. -/
  | use (path : Path) (span : Span)
  /-- A loop around blocks. -/
  | loop (var : Ident) (path : Path) (opening closing : Span) (body : List Block)
  /-- A conditional: the branch of the if tag, those of the elif tags, and the alternative. -/
  | choice (first : Branch (List Block)) (others : List (Branch (List Block)))
      (otherwise : Option (Alternative (List Block))) (closing : Span)

namespace Block

/-- Proves a property of all blocks from the blocks inside. -/
@[elab_as_elim]
theorem inductionOn {motive : Block → Prop} (block : Block)
    (raw : ∀ text span, motive (.raw text span))
    (invalid : ∀ text span, motive (.invalid text span))
    (use : ∀ path span, motive (.use path span))
    (loop : ∀ var path opening closing body, (∀ block ∈ body, motive block) →
      motive (.loop var path opening closing body))
    (choice : ∀ first others otherwise closing,
      (∀ block ∈ first.body, motive block) →
      (∀ branch ∈ others, ∀ block ∈ branch.body, motive block) →
      (∀ alternative, otherwise = some alternative → ∀ block ∈ alternative.body, motive block) →
      motive (.choice first others otherwise closing)) :
    motive block :=
  @Block.rec motive
    (fun body => ∀ block ∈ body, motive block)
    (fun branch => ∀ block ∈ branch.body, motive block)
    (fun others => ∀ branch ∈ others, ∀ block ∈ branch.body, motive block)
    (fun otherwise => ∀ alternative, otherwise = some alternative →
      ∀ block ∈ alternative.body, motive block)
    (fun alternative => ∀ block ∈ alternative.body, motive block)
    raw invalid use loop choice
    (fun _ h => absurd h List.not_mem_nil)
    (fun _ _ first more block member =>
      (List.mem_cons.mp member).elim (fun same => same ▸ first) (more block))
    (fun _ _ _ body => body)
    (fun _ h => absurd h List.not_mem_nil)
    (fun _ _ first more branch member =>
      (List.mem_cons.mp member).elim (fun same => same ▸ first) (more branch))
    (fun _ h => nomatch h)
    (fun _ body _ same => Option.some.inj same ▸ body)
    (fun _ _ body => body)
    block

mutual

/-- The tokens that a block derives. -/
def tokens : Block → List Token
  | .raw text span => [⟨.raw text, span⟩]
  | .invalid text span => [⟨.invalid text, span⟩]
  | .use path span => [⟨.use path, span⟩]
  | .loop var path opening closing body =>
    ⟨.forStart var path, opening⟩ :: (rowTokens body ++ [⟨.forEnd, closing⟩])
  | .choice ⟨path, span, body⟩ others otherwise closing =>
    ⟨.ifStart path, span⟩ ::
      (rowTokens body ++ elifTokens others ++ elseTokens otherwise ++ [⟨.ifEnd, closing⟩])

/-- The tokens that blocks derive one after the other. -/
def rowTokens : List Block → List Token
  | [] => []
  | block :: more => block.tokens ++ rowTokens more

/-- The tokens that further branches derive, each behind its elif tag. -/
def elifTokens : List (Branch (List Block)) → List Token
  | [] => []
  | ⟨path, span, body⟩ :: more => ⟨.elifTag path, span⟩ :: (rowTokens body ++ elifTokens more)

/-- The tokens that an alternative derives behind its else tag. -/
def elseTokens : Option (Alternative (List Block)) → List Token
  | none => []
  | some ⟨span, body⟩ => ⟨.elseTag, span⟩ :: rowTokens body

end

mutual

/-- How many loops and conditionals of a block are inside each other at most. -/
def depth : Block → Nat
  | .raw _ _ | .invalid _ _ | .use _ _ => 0
  | .loop _ _ _ _ body => rowDepth body + 1
  | .choice ⟨_, _, body⟩ others otherwise _ =>
    max (rowDepth body) (max (elifDepth others) (elseDepth otherwise)) + 1

/-- The depth of the deepest block in a row. -/
def rowDepth : List Block → Nat
  | [] => 0
  | block :: more => max block.depth (rowDepth more)

/-- The depth of the deepest block in further branches. -/
def elifDepth : List (Branch (List Block)) → Nat
  | [] => 0
  | ⟨_, _, body⟩ :: more => max (rowDepth body) (elifDepth more)

/-- The depth of the deepest block in an alternative. -/
def elseDepth : Option (Alternative (List Block)) → Nat
  | none => 0
  | some ⟨_, body⟩ => rowDepth body

end

mutual

/-- The tree that a block stands for. -/
def node : Block → Node
  | .raw text span => .raw text span
  | .invalid text span => .invalid text span
  | .use path span => .use path span
  | .loop var path opening closing body =>
    .loop var path opening closing (.ofRun (.empty opening.stop) (rowNodes body))
  | .choice ⟨path, span, body⟩ others otherwise closing =>
    .choice (⟨path, span, .ofRun (.empty span.stop) (rowNodes body)⟩ :: elifNodes others)
      (elseNode otherwise) closing

/-- The trees that blocks stand for. -/
def rowNodes : List Block → List Node
  | [] => []
  | block :: more => block.node :: rowNodes more

/-- The branches that further branches stand for. -/
def elifNodes : List (Branch (List Block)) → List (Branch Node)
  | [] => []
  | ⟨path, span, body⟩ :: more =>
    ⟨path, span, .ofRun (.empty span.stop) (rowNodes body)⟩ :: elifNodes more

/-- The alternative that an alternative stands for. -/
def elseNode : Option (Alternative (List Block)) → Option (Alternative Node)
  | none => none
  | some ⟨span, body⟩ => some ⟨span, .ofRun (.empty span.stop) (rowNodes body)⟩

end

/-- Blocks in a row derive their tokens one after the other. -/
theorem rowTokens_eq_flatMap (row : List Block) : rowTokens row = row.flatMap tokens := by
  induction row with
  | nil => rfl
  | cons block more ih => rw [rowTokens, ih, List.flatMap_cons]

/-- Two rows of blocks derive the tokens of both. -/
@[simp] theorem rowTokens_append (front back : List Block) :
    rowTokens (front ++ back) = rowTokens front ++ rowTokens back := by
  simp only [rowTokens_eq_flatMap, List.flatMap_append]

/-- Further branches derive the tokens of all of them. -/
theorem elifTokens_append (front back : List (Branch (List Block))) :
    elifTokens (front ++ back) = elifTokens front ++ elifTokens back := by
  induction front with
  | nil => rfl
  | cons branch more ih => simp [elifTokens, ih]

/-- A row is as deep as the deepest of its blocks. -/
theorem rowDepth_le_iff (row : List Block) (bound : Nat) :
    rowDepth row ≤ bound ↔ ∀ block ∈ row, block.depth ≤ bound := by
  induction row with
  | nil => simp [rowDepth]
  | cons block more ih => rw [rowDepth, Nat.max_le, ih, List.forall_mem_cons]

/-- Further branches are as deep as the deepest of their bodies. -/
theorem elifDepth_le_iff (others : List (Branch (List Block))) (bound : Nat) :
    elifDepth others ≤ bound ↔ ∀ branch ∈ others, rowDepth branch.body ≤ bound := by
  induction others with
  | nil => simp [elifDepth]
  | cons branch more ih => rw [elifDepth, Nat.max_le, ih, List.forall_mem_cons]

/-- Blocks in a row stand for their trees. -/
theorem rowNodes_eq_map (row : List Block) : rowNodes row = row.map node := by
  induction row with
  | nil => rfl
  | cons block more ih => rw [rowNodes, ih, List.map_cons]

/-- Further branches stand for the branches with their bodies joined. -/
theorem elifNodes_eq_map (others : List (Branch (List Block))) :
    elifNodes others = others.map fun branch =>
      branch.map fun body => .ofRun (.empty branch.span.stop) (rowNodes body) := by
  induction others with
  | nil => rfl
  | cons branch more ih => rw [elifNodes, ih, List.map_cons]; rfl

/-- An alternative stands for the alternative with its body joined. -/
theorem elseNode_eq_map (otherwise : Option (Alternative (List Block))) :
    elseNode otherwise = otherwise.map fun alternative =>
      alternative.map fun body => .ofRun (.empty alternative.span.stop) (rowNodes body) := by
  cases otherwise <;> rfl

/-- A body joined from trees without unexpected tokens holds none. -/
theorem not_flawed_joined {body : List Block} (sound : ∀ block ∈ body, ¬block.node.Flawed)
    (anchor : Span) : ¬(Node.ofRun anchor (rowNodes body)).Flawed := by
  rw [Node.flawed_ofRun, rowNodes_eq_map]
  rintro ⟨node, member, flawed⟩
  obtain ⟨block, inside, rfl⟩ := List.mem_map.mp member
  exact sound block inside flawed

/-- The tree of a block holds no unexpected token. -/
theorem not_flawed_node (block : Block) : ¬block.node.Flawed := by
  induction block using inductionOn with
  | raw text span => exact Node.not_flawed_raw text span
  | invalid text span => exact Node.not_flawed_invalid text span
  | use path span => exact Node.not_flawed_use path span
  | loop var path opening closing body ih =>
    rw [node, Node.flawed_loop]
    exact not_flawed_joined ih _
  | choice first others otherwise closing first_ih others_ih otherwise_ih =>
    rw [node, Node.flawed_choice, elifNodes_eq_map, elseNode_eq_map, not_or]
    constructor
    · rintro ⟨branch, member, flawed⟩
      rcases List.mem_cons.mp member with rfl | member
      · exact not_flawed_joined first_ih _ flawed
      · obtain ⟨other, known, rfl⟩ := List.mem_map.mp member
        exact not_flawed_joined (others_ih other known) _ flawed
    · rintro ⟨alternative, same, flawed⟩
      obtain ⟨known, found, rfl⟩ := Option.map_eq_some_iff.mp same
      exact not_flawed_joined (otherwise_ih known found) _ flawed

end Block

end TextTemplate.Expression
