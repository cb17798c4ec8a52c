import TextTemplate.Expression.Assembly
import TextTemplate.Proofs.BlockGrammar

/-!
# Derivations cut off at a level of nesting

A derivation may nest deeper than a template is allowed to. Cutting it off at a level replaces every
block that stands inside as many others by its own tokens, one by one, in the row around it, and
keeps everything else. A derivation that is not deeper than the level stays as it is.
-/

namespace TextTemplate.Expression.Block

open Text Markup

mutual

/-- The nodes of a block with room for `room` constructs inside each other. A construct without room
is replaced by its tokens. -/
def cut : Block → Nat → List Node
  | .raw text span, _ => [.raw text span]
  | .invalid text span, _ => [.invalid text span]
  | .use path span, _ => [.use path span]
  | .loop var path opening closing body, 0 =>
    (Block.loop var path opening closing body).tokens.map .loose
  | .loop var path opening closing body, room + 1 =>
    [.loop var path opening closing (.ofRun (.empty opening.stop) (rowCut body room))]
  | .choice first others otherwise closing, 0 =>
    (Block.choice first others otherwise closing).tokens.map .loose
  | .choice ⟨path, span, body⟩ others otherwise closing, room + 1 =>
    [.choice (⟨path, span, .ofRun (.empty span.stop) (rowCut body room)⟩ :: elifCut others room)
      (elseCut otherwise room) closing]

/-- The nodes of blocks in a row. -/
def rowCut : List Block → Nat → List Node
  | [], _ => []
  | block :: more, room => cut block room ++ rowCut more room

/-- The branches made of further branches. -/
def elifCut : List (Branch (List Block)) → Nat → List (Branch Node)
  | [], _ => []
  | ⟨path, span, body⟩ :: more, room =>
    ⟨path, span, .ofRun (.empty span.stop) (rowCut body room)⟩ :: elifCut more room

/-- The alternative made of an alternative. -/
def elseCut : Option (Alternative (List Block)) → Nat → Option (Alternative Node)
  | none, _ => none
  | some ⟨span, body⟩, room => some ⟨span, .ofRun (.empty span.stop) (rowCut body room)⟩

end

mutual

/-- The opening tags of the blocks that are replaced in a block, in order. -/
def replaced : Block → Nat → List Token
  | .raw _ _, _ | .invalid _ _, _ | .use _ _, _ => []
  | .loop var path opening _ _, 0 => [⟨.forStart var path, opening⟩]
  | .loop _ _ _ _ body, room + 1 => rowReplaced body room
  | .choice ⟨path, span, _⟩ _ _ _, 0 => [⟨.ifStart path, span⟩]
  | .choice ⟨_, _, body⟩ others otherwise _, room + 1 =>
    rowReplaced body room ++ (elifReplaced others room ++ elseReplaced otherwise room)

/-- The opening tags of the blocks that are replaced in a row. -/
def rowReplaced : List Block → Nat → List Token
  | [], _ => []
  | block :: more, room => replaced block room ++ rowReplaced more room

/-- The opening tags of the blocks that are replaced in further branches. -/
def elifReplaced : List (Branch (List Block)) → Nat → List Token
  | [], _ => []
  | ⟨_, _, body⟩ :: more, room => rowReplaced body room ++ elifReplaced more room

/-- The opening tags of the blocks that are replaced in an alternative. -/
def elseReplaced : Option (Alternative (List Block)) → Nat → List Token
  | none, _ => []
  | some ⟨_, body⟩, room => rowReplaced body room

end

/-- Further branches are cut off in their bodies. -/
theorem elifCut_eq_map (others : List (Branch (List Block))) (room : Nat) :
    elifCut others room = others.map fun branch =>
      branch.map fun body => .ofRun (.empty branch.span.stop) (rowCut body room) := by
  induction others with
  | nil => rfl
  | cons branch more ih => rw [elifCut, ih, List.map_cons]; rfl

/-- An alternative is cut off in its body. -/
theorem elseCut_eq_map (otherwise : Option (Alternative (List Block))) (room : Nat) :
    elseCut otherwise room = otherwise.map fun alternative =>
      alternative.map fun body => .ofRun (.empty alternative.span.stop) (rowCut body room) := by
  cases otherwise <;> rfl

/-- A block stays whole where there is room for its depth. -/
def StaysWhole (block : Block) : Prop :=
  ∀ room, block.depth ≤ room → block.cut room = [block.node] ∧ block.replaced room = []

/-- Blocks that stay whole do so in a row. -/
theorem row_stays_whole {row : List Block} (each : ∀ block ∈ row, block.StaysWhole) {room : Nat}
    (fits : rowDepth row ≤ room) : rowCut row room = rowNodes row ∧ rowReplaced row room = [] := by
  induction row with
  | nil => exact ⟨rfl, rfl⟩
  | cons block more ih =>
    rw [rowDepth, Nat.max_le] at fits
    obtain ⟨own, silent⟩ := each block (by simp) room fits.1
    obtain ⟨others, silent'⟩ := ih (fun b member => each b (List.mem_cons_of_mem _ member)) fits.2
    rw [rowCut, rowReplaced, rowNodes, own, silent, others, silent']
    exact ⟨rfl, rfl⟩

/-- Further branches of blocks that stay whole stay whole. -/
theorem elif_stays_whole {others : List (Branch (List Block))}
    (each : ∀ branch ∈ others, ∀ block ∈ branch.body, block.StaysWhole) {room : Nat}
    (fits : elifDepth others ≤ room) :
    elifCut others room = elifNodes others ∧ elifReplaced others room = [] := by
  induction others with
  | nil => exact ⟨rfl, rfl⟩
  | cons branch more ih =>
    obtain ⟨path, span, body⟩ := branch
    rw [elifDepth, Nat.max_le] at fits
    have bodies : ∀ block ∈ body, block.StaysWhole := each ⟨path, span, body⟩ (by simp)
    obtain ⟨own, silent⟩ := row_stays_whole bodies fits.1
    obtain ⟨others, silent'⟩ := ih (fun b member => each b (List.mem_cons_of_mem _ member)) fits.2
    rw [elifCut, elifReplaced, elifNodes, own, silent, others, silent']
    exact ⟨rfl, rfl⟩

/-- An alternative of blocks that stay whole stays whole. -/
theorem else_stays_whole {otherwise : Option (Alternative (List Block))}
    (each : ∀ alternative, otherwise = some alternative →
      ∀ block ∈ alternative.body, block.StaysWhole) {room : Nat}
    (fits : elseDepth otherwise ≤ room) :
    elseCut otherwise room = elseNode otherwise ∧ elseReplaced otherwise room = [] := by
  cases otherwise with
  | none => exact ⟨rfl, rfl⟩
  | some alternative =>
    obtain ⟨span, body⟩ := alternative
    obtain ⟨own, silent⟩ := row_stays_whole (each ⟨span, body⟩ rfl) fits
    rw [elseCut, elseReplaced, elseNode, own, silent]
    exact ⟨rfl, rfl⟩

/-- Every block stays whole where there is room for its depth. -/
theorem staysWhole (block : Block) : block.StaysWhole := by
  induction block using inductionOn with
  | raw | invalid | use => exact fun _ _ => ⟨rfl, rfl⟩
  | loop var path opening closing body ih =>
    intro room fits
    cases room with
    | zero => exact absurd fits (Nat.not_succ_le_zero _)
    | succ room =>
      obtain ⟨own, silent⟩ := row_stays_whole ih (Nat.le_of_succ_le_succ fits)
      rw [cut, replaced, node, own]
      exact ⟨rfl, silent⟩
  | choice first others otherwise closing first_ih others_ih otherwise_ih =>
    intro room fits
    obtain ⟨path, span, body⟩ := first
    cases room with
    | zero => exact absurd fits (Nat.not_succ_le_zero _)
    | succ room =>
      have inner := Nat.le_of_succ_le_succ fits
      rw [Nat.max_le, Nat.max_le] at inner
      obtain ⟨own, silent⟩ := row_stays_whole first_ih inner.1
      obtain ⟨further, silent'⟩ := elif_stays_whole others_ih inner.2.1
      obtain ⟨last, silent''⟩ := else_stays_whole otherwise_ih inner.2.2
      rw [cut, replaced, node, own, silent, further, silent', last, silent'']
      exact ⟨rfl, rfl⟩

/-- A row is cut off nowhere where there is room for its depth. -/
theorem rowCut_of_depth_le {row : List Block} {room : Nat} (fits : rowDepth row ≤ room) :
    rowCut row room = rowNodes row ∧ rowReplaced row room = [] :=
  row_stays_whole (fun block _ => block.staysWhole) fits

end TextTemplate.Expression.Block
