import TextTemplate.Proofs.AssembledPieces
import TextTemplate.Proofs.SourceTokens
import TextTemplate.Proofs.Subnodes
import TextTemplate.Proofs.TokenPositions

/-!
# The form of parsed trees

A tree that was parsed is in one form. Sequences are flat and never shorter than two, constructs
nest within the limit and stand between tags of the text, empty text stands for an empty body only,
and the end of the text is kept behind everything else. All of this follows from the pieces a tree
is assembled from and from the tokens it holds. Residuals of parsed trees need not have this form.
-/

namespace TextTemplate.Expression

open Text Markup

namespace Node

mutual

/-- How many loops and conditionals of an expression are inside each other at most. -/
def nesting : Node → Nat
  | .raw _ _ | .invalid _ _ | .use _ _ | .unexpected _ => 0
  | .loop _ _ _ _ body => body.nesting + 1
  | .choice branches otherwise _ =>
    max (branchNesting branches) (alternativeNesting otherwise) + 1
  | .concat children => allNesting children

/-- The nesting of the deepest body among branches. -/
def branchNesting : List (Branch Node) → Nat
  | [] => 0
  | ⟨_, _, body⟩ :: more => max body.nesting (branchNesting more)

/-- The nesting of the body of an alternative. -/
def alternativeNesting : Option (Alternative Node) → Nat
  | none => 0
  | some ⟨_, body⟩ => body.nesting

/-- The nesting of the deepest expression in a row. -/
def allNesting : List Node → Nat
  | [] => 0
  | node :: more => max node.nesting (allNesting more)

end

/-- A row nests as deep as the deepest of its expressions. -/
theorem allNesting_le_iff (nodes : List Node) (bound : Nat) :
    allNesting nodes ≤ bound ↔ ∀ node ∈ nodes, node.nesting ≤ bound := by
  induction nodes with
  | nil => simp [allNesting]
  | cons node more ih => rw [allNesting, Nat.max_le, ih, List.forall_mem_cons]

/-- Branches nest as deep as the deepest of their bodies. -/
theorem branchNesting_le_iff (branches : List (Branch Node)) (bound : Nat) :
    branchNesting branches ≤ bound ↔ ∀ branch ∈ branches, branch.body.nesting ≤ bound := by
  induction branches with
  | nil => simp [branchNesting]
  | cons branch more ih => rw [branchNesting, Nat.max_le, ih, List.forall_mem_cons]

/-- A run nests as deep as the deepest of its nodes. -/
theorem nesting_ofRun_le {nodes : List Node} {bound : Nat}
    (each : ∀ node ∈ nodes, node.nesting ≤ bound) (anchor : Span) :
    (ofRun anchor nodes).nesting ≤ bound := by
  match nodes with
  | [] => exact Nat.zero_le bound
  | [node] => exact each node (by simp)
  | first :: second :: more => exact (allNesting_le_iff _ bound).mpr each

/-- The bodies of a construct, each with the span of the tag in front of it. -/
def bodies : Node → List (Span × Node)
  | .loop _ _ opening _ body => [(opening, body)]
  | .choice branches otherwise _ =>
    branches.map (fun branch => (branch.span, branch.body)) ++
      (otherwise.map fun alternative => (alternative.span, alternative.body)).toList
  | .raw _ _ | .invalid _ _ | .use _ _ | .unexpected _ | .concat _ => []

/-- The expression may stand beside others: it is no sequence and no empty text. -/
def Single (node : Node) : Prop := node.kind ≠ .concat ∧ ∀ span, node ≠ .raw "" span

/-- An expression that is joined, opened and closed as it should be. A sequence has at least two
children, all of which may stand beside others. A conditional has a branch. Where the body of a
construct is empty, it stands right behind the tag in front of it. An unexpected token is a tag or
the end of the text. -/
def Regular : Node → Prop
  | .concat children => 2 ≤ children.length ∧ ∀ child ∈ children, child.Single
  | .choice branches otherwise closing =>
    branches ≠ [] ∧ ∀ place ∈ bodies (.choice branches otherwise closing), ∀ span,
      place.2 = .raw "" span → span = .empty place.1.stop
  | .loop _ _ opening _ body => ∀ span, body = .raw "" span → span = .empty opening.stop
  | .unexpected token => leaf? token = none
  | .raw _ _ | .invalid _ _ | .use _ _ => True

/-- The expression does not keep the end of the text. -/
def Inside (node : Node) : Prop :=
  ∀ token, node = .unexpected token → token.lexeme ≠ .endOfText

/-- A run of expressions that may stand beside others has what all of them have, unless a sequence
of them has not. -/
theorem throughout_ofRun {P : Node → Prop} {nodes : List Node}
    (each : ∀ node ∈ nodes, node.Throughout P) {anchor : Span} (empty : P (.raw "" anchor))
    (joined : 2 ≤ nodes.length → P (.concat nodes)) : (ofRun anchor nodes).Throughout P := by
  match nodes with
  | [] => exact (throughout_raw ..).mpr empty
  | [node] => exact each node (by simp)
  | first :: second :: more =>
    have several : 2 ≤ (first :: second :: more).length := by
      simp only [List.length_cons]
      omega
    exact (throughout_concat ..).mpr ⟨joined several, each⟩

/-- Two or more expressions are joined into a sequence. -/
theorem ofRun_eq_concat {nodes : List Node} (several : 2 ≤ nodes.length) (anchor : Span) :
    ofRun anchor nodes = .concat nodes := by
  match nodes with
  | first :: second :: more => rfl

/-- A run of expressions that may stand beside others is empty text only where there are none. -/
theorem ofRun_eq_empty {nodes : List Node} (single : ∀ node ∈ nodes, node.Single)
    {anchor span : Span} (nothing : ofRun anchor nodes = .raw "" span) :
    nodes = [] ∧ span = anchor := by
  match nodes with
  | [] =>
    obtain ⟨-, same⟩ := Node.raw.inj nothing
    exact ⟨rfl, same.symm⟩
  | [node] => exact absurd nothing ((single node (by simp)).2 span)
  | first :: second :: more => nomatch nothing

end Node

section Pieces

variable {room : Nat} {node : Node}

/-- Constructs nest in a piece as deep as there is room. -/
theorem Piece.nesting_le (piece : Piece room node) : node.nesting ≤ room := by
  induction piece with
  | raw | invalid | use | unexpected => exact Nat.zero_le _
  | loop var path opening closing body ih =>
    have inner : (bodyAfter opening _).nesting ≤ _ := Node.nesting_ofRun_le
      (fun node member => ih node (List.mem_reverse.mp member)) _
    exact Nat.succ_le_succ inner
  | @choice room branches nonempty bodies otherwise last closing bodies_ih last_ih =>
    have first : Node.branchNesting (branches.reverse.map fun branch =>
        branch.map (bodyAfter branch.span)) ≤ room := by
      rw [Node.branchNesting_le_iff]
      intro branch member
      obtain ⟨source, known, rfl⟩ := List.mem_map.mp member
      exact Node.nesting_ofRun_le (fun node own =>
        bodies_ih source (List.mem_reverse.mp known) node (List.mem_reverse.mp own)) _
    have second : Node.alternativeNesting (otherwise.map fun alternative =>
        alternative.map (bodyAfter alternative.span)) ≤ room := by
      cases otherwise with
      | none => exact Nat.zero_le room
      | some alternative =>
        exact Node.nesting_ofRun_le (fun node own =>
          last_ih alternative rfl node (List.mem_reverse.mp own)) _
    exact Nat.succ_le_succ (Nat.max_le.mpr ⟨first, second⟩)

/-- A piece may stand beside others. -/
theorem Piece.single (piece : Piece room node) : node.Single := by
  cases piece with
  | raw _ covers span =>
    refine ⟨nofun, fun other same => covers ?_⟩
    exact (Node.raw.inj same).1
  | invalid | use | unexpected | loop | choice => exact ⟨nofun, nofun⟩

/-- The body that a run of pieces makes is empty right behind the tag in front of it. -/
theorem empty_bodyAfter {run : List Node} (single : ∀ node ∈ run, node.Single) {opening span : Span}
    (nothing : bodyAfter opening run = .raw "" span) : span = .empty opening.stop := by
  have reversed : ∀ node ∈ run.reverse, node.Single :=
    fun node member => single node (List.mem_reverse.mp member)
  exact (Node.ofRun_eq_empty reversed nothing).2

/-- What pieces have throughout, and flat sequences and empty texts have as well, the body that is
made of them has. -/
theorem throughout_bodyAfter {P : Node → Prop} {run : List Node}
    (each : ∀ node ∈ run, node.Throughout P) (empty : ∀ span, P (.raw "" span))
    (joined : ∀ nodes, (∀ node ∈ nodes, node ∈ run) → 2 ≤ nodes.length → P (.concat nodes))
    (opening : Span) : (bodyAfter opening run).Throughout P := by
  refine Node.throughout_ofRun (fun node member => each node (List.mem_reverse.mp member))
    (empty _) fun several => joined _ ?_ several
  exact fun node member => List.mem_reverse.mp member

/-- What is passed on by loops, conditionals and flat sequences of pieces, a piece has throughout
as soon as the pieces without parts have it. -/
theorem Piece.throughout {P : Node → Prop} (piece : Piece room node)
    (raw : ∀ text span, P (.raw text span)) (invalid : ∀ text span, P (.invalid text span))
    (use : ∀ path span, P (.use path span))
    (unexpected : ∀ token, Node.leaf? token = none → token.lexeme ≠ .endOfText →
      P (.unexpected token))
    (loop : ∀ var path opening closing run, (∀ node ∈ run, node.Single) →
      P (.loop var path opening closing (bodyAfter opening run)))
    (choice : ∀ branches otherwise closing, branches ≠ [] →
      (∀ branch ∈ branches, ∀ node ∈ branch.body, node.Single) →
      (∀ alternative : Alternative (List Node), otherwise = some alternative →
        ∀ node ∈ alternative.body, node.Single) →
      P (choiceOf branches otherwise closing))
    (concat : ∀ nodes, 2 ≤ nodes.length → (∀ node ∈ nodes, node.Single) → P (.concat nodes)) :
    node.Throughout P := by
  have body : ∀ {room : Nat} {run : List Node}, (∀ node ∈ run, Piece room node) →
      (∀ node ∈ run, node.Throughout P) → ∀ opening, (bodyAfter opening run).Throughout P := by
    intro room run pieces each opening
    exact throughout_bodyAfter each (raw "") (fun nodes own several =>
      concat nodes several fun node member => (pieces node (own node member)).single) opening
  induction piece with
  | raw room covers span => exact (Node.throughout_raw ..).mpr (raw _ span)
  | invalid room text span => exact (Node.throughout_invalid ..).mpr (invalid text span)
  | use room path span => exact (Node.throughout_use ..).mpr (use path span)
  | unexpected room tag inside =>
    exact (Node.throughout_unexpected ..).mpr (unexpected _ tag inside)
  | loop var path opening closing pieces ih =>
    have own := loop var path opening closing _ fun node member => (pieces node member).single
    exact (Node.throughout_loop ..).mpr ⟨own, body pieces ih opening⟩
  | choice nonempty bodies last closing bodies_ih last_ih =>
    have own := choice _ _ closing nonempty
      (fun branch known node member => (bodies branch known node member).single)
      fun alternative given node member => (last alternative given node member).single
    refine (Node.throughout_choice ..).mpr ⟨own, fun branch member => ?_, fun alternative same => ?_⟩
    · obtain ⟨source, known, rfl⟩ := List.mem_map.mp member
      have inside := List.mem_reverse.mp known
      exact body (bodies source inside) (bodies_ih source inside) source.span
    · obtain ⟨source, given, rfl⟩ := Option.map_eq_some_iff.mp same
      exact body (last source given) (last_ih source given) source.span

end Pieces

namespace Node

/-- The body of a branch holds some of the tokens of the branches. -/
theorem body_sublist_branchTokens {branches : List (Branch Node)} {branch : Branch Node}
    (member : branch ∈ branches) (first : Bool) :
    branch.body.tokens.Sublist (branchTokens first branches) := by
  induction branches generalizing first with
  | nil => contradiction
  | cons head more ih =>
    rw [branchTokens]
    apply List.Sublist.cons
    rcases List.mem_cons.mp member with rfl | later
    · exact List.sublist_append_left _ _
    · exact (ih later false).trans (List.sublist_append_right _ _)

/-- What is inside an expression holds some of its tokens, in their order. -/
theorem tokens_sublist {node inner : Node} (inside : inner ∈ node.subnodes) :
    inner.tokens.Sublist node.tokens := by
  induction node using inductionOn with
  | raw | invalid | use | unexpected =>
    obtain rfl := List.mem_singleton.mp inside
    exact List.Sublist.refl _
  | loop var path opening closing body ih =>
    rcases List.mem_cons.mp inside with rfl | deeper
    · exact List.Sublist.refl _
    · exact ((ih deeper).trans (List.sublist_append_left _ _)).cons _
  | choice branches otherwise closing bodies last =>
    rw [subnodes_choice] at inside
    rcases List.mem_cons.mp inside with rfl | deeper
    · exact List.Sublist.refl _
    rw [tokens]
    rcases List.mem_append.mp deeper with own | final
    · obtain ⟨branch, member, deeper⟩ := List.mem_flatMap.mp own
      have within := (bodies branch member deeper).trans (body_sublist_branchTokens member true)
      exact (within.trans (List.sublist_append_left _ _)).trans (List.sublist_append_left _ _)
    · cases otherwise with
      | none => contradiction
      | some alternative =>
        have within : inner.tokens.Sublist (alternativeTokens (some alternative)) :=
          (last alternative rfl final).cons _
        exact (within.trans (List.sublist_append_right _ _)).trans (List.sublist_append_left _ _)
  | concat children ih =>
    rw [subnodes_concat] at inside
    rcases List.mem_cons.mp inside with rfl | deeper
    · exact List.Sublist.refl _
    · obtain ⟨child, member, deeper⟩ := List.mem_flatMap.mp deeper
      rw [tokens, allTokens_eq_flatMap, List.flatMap_def]
      exact (ih child member deeper).trans
        (List.sublist_flatten_of_mem (List.mem_map_of_mem member))

/-- The tags of branches are among their tokens, in their order. -/
theorem branchTags_sublist (branches : List (Branch Node)) :
    (branchTags branches).Sublist (branchTokens true branches) := by
  have further : ∀ more : List (Branch Node),
      (more.map fun branch => (⟨.elifTag branch.path, branch.span⟩ : Token)).Sublist
        (branchTokens false more) := by
    intro more
    induction more with
    | nil => exact List.Sublist.refl _
    | cons branch more ih =>
      exact (ih.trans (List.sublist_append_right _ _)).cons_cons _
  cases branches with
  | nil => exact List.Sublist.refl _
  | cons first more =>
    exact ((further more).trans (List.sublist_append_right _ _)).cons_cons _

/-- The tags of a conditional are among its tokens, in their order. -/
theorem choiceTags_sublist (branches : List (Branch Node))
    (otherwise : Option (Alternative Node)) (closing : Span) :
    (choiceTags branches otherwise closing).Sublist
      (choice branches otherwise closing).tokens := by
  have last : (otherwise.map fun alternative =>
      (⟨.elseTag, alternative.span⟩ : Token)).toList.Sublist (alternativeTokens otherwise) := by
    cases otherwise with
    | none => exact List.Sublist.refl _
    | some alternative => exact (List.nil_sublist _).cons_cons _
  exact ((branchTags_sublist branches).append last).append (List.Sublist.refl _)

/-- The kinds of the tags of a conditional with `further` branches behind its first one: an if tag,
elif tags, an else tag where there is an alternative, and an endif tag. -/
def conditionalKinds (further : Nat) (alternative : Bool) : List TokenKind :=
  .ifStart :: (List.replicate further .elifTag ++ (if alternative then [.elseTag] else []) ++
    [.ifEnd])

/-- The tags of a conditional are of the kinds they should be of. -/
theorem map_kind_choiceTags (first : Branch Node) (more : List (Branch Node))
    (otherwise : Option (Alternative Node)) (closing : Span) :
    (choiceTags (first :: more) otherwise closing).map Token.kind =
      conditionalKinds more.length otherwise.isSome := by
  have further : (more.map fun branch => (⟨.elifTag branch.path, branch.span⟩ : Token)).map
      Token.kind = List.replicate more.length .elifTag := by
    rw [List.map_map]
    exact List.map_const'
  have last : (otherwise.map fun alternative =>
      (⟨.elseTag, alternative.span⟩ : Token)).toList.map Token.kind =
        if otherwise.isSome then [.elseTag] else [] := by
    cases otherwise <;> rfl
  rw [choiceTags, branchTags, List.map_append, List.map_append, List.map_cons, further, last]
  rfl

/-- The form of the tree of a text, with constructs nested up to `limit` deep. -/
structure FormOf (limit : Int) (text : String) (tree : Node) : Prop where
  /-- A sequence has at least two children, and none of them is a sequence. -/
  flat : ∀ children, .concat children ∈ tree.subnodes →
    2 ≤ children.length ∧ ∀ child ∈ children, child.kind ≠ .concat
  /-- Loops and conditionals nest within the limit; a negative one is as good as none. -/
  nesting_le : (tree.nesting : Int) ≤ max limit 0
  /-- A loop stands between the head that names its variable and its path, and the end of a loop;
  both are tokens of the text, in this order. -/
  loop_tags : ∀ var path opening closing body,
    .loop var path opening closing body ∈ tree.subnodes →
      [⟨.forStart var path, opening⟩, ⟨.forEnd, closing⟩].Sublist (contentTokens text)
  /-- A conditional has at least one branch. Its first branch is behind an if tag, every other one
  behind an elif tag, its alternative behind an else tag, and an endif tag closes it; all of them
  are tokens of the text, in this order. -/
  choice_tags : ∀ branches otherwise closing,
    .choice branches otherwise closing ∈ tree.subnodes → branches ≠ [] ∧
      (choiceTags branches otherwise closing).map Token.kind =
        conditionalKinds (branches.length - 1) otherwise.isSome ∧
      (choiceTags branches otherwise closing).Sublist (contentTokens text)
  /-- The whole tree is empty text only for the empty text, and then it stands at its start. -/
  empty_tree : ∀ span, tree = .raw "" span ↔ text = "" ∧ span = .empty .start
  /-- No empty text stands beside other expressions. -/
  empty_child : ∀ children, .concat children ∈ tree.subnodes → ∀ span, .raw "" span ∉ children
  /-- Where the body of a construct is empty text, it stands right behind the tag in front of it. -/
  empty_body : ∀ node ∈ tree.subnodes, ∀ opening body, (opening, body) ∈ node.bodies →
    ∀ span, body = .raw "" span → span = .empty opening.stop
  /-- An unexpected token is none that could stand for itself. -/
  unexpected_kind : ∀ token, .unexpected token ∈ tree.subnodes →
    token.kind ≠ .raw ∧ token.kind ≠ .invalid ∧ token.kind ≠ .use
  /-- Where the end of the text is kept, the tree is a sequence that ends with it, once or several
  times, and the other children do not keep it anywhere. -/
  ends_last : ∀ token, .unexpected token ∈ tree.subnodes → token.lexeme = .endOfText →
    ∃ front count, tree = .concat (front ++ List.replicate count (.unexpected token)) ∧
      ∀ node ∈ front, node.Throughout Inside

end Node

namespace Piece

variable {room : Nat} {node : Node}

/-- A piece is regular throughout. -/
theorem regular (piece : Piece room node) : node.Throughout Node.Regular := by
  refine piece.throughout (fun _ _ => trivial) (fun _ _ => trivial) (fun _ _ => trivial)
    (fun token tag _ => tag) ?_ ?_ (fun nodes several single => ⟨several, single⟩)
  · intro var path opening closing run single span nothing
    exact empty_bodyAfter single nothing
  · intro branches otherwise closing nonempty single last
    refine ⟨by simpa using nonempty, fun place member span nothing => ?_⟩
    rcases List.mem_append.mp member with own | final
    · obtain ⟨branch, known, rfl⟩ := List.mem_map.mp own
      obtain ⟨source, inside, rfl⟩ := List.mem_map.mp known
      exact empty_bodyAfter (single source (List.mem_reverse.mp inside)) nothing
    · cases otherwise with
      | none => contradiction
      | some alternative =>
        obtain rfl := List.mem_singleton.mp final
        exact empty_bodyAfter (last alternative rfl) nothing

/-- A piece does not keep the end of the text anywhere. -/
theorem inside (piece : Piece room node) : node.Throughout Node.Inside := by
  refine piece.throughout (fun _ _ => nofun) (fun _ _ => nofun) (fun _ _ => nofun) ?_
    (fun _ _ _ _ _ _ => nofun) (fun _ _ _ _ _ _ => nofun) (fun _ _ _ => nofun)
  rintro token - proper other same
  obtain rfl := Node.unexpected.inj same
  exact proper

end Piece

/-- The tags of a conditional were read inside a text. -/
theorem genuine_choiceTags {branches : List (Branch Node)} {otherwise : Option (Alternative Node)}
    {closing : Span} : ∀ tag ∈ choiceTags branches otherwise closing, tag.genuine = true := by
  intro tag member
  simp only [choiceTags, List.mem_append, List.mem_singleton, Option.mem_toList,
    Option.map_eq_some_iff] at member
  rcases member with (own | ⟨alternative, -, rfl⟩) | rfl
  · cases branches with
    | nil => contradiction
    | cons first more =>
      rcases List.mem_cons.mp own with rfl | later
      · rfl
      · obtain ⟨branch, -, rfl⟩ := List.mem_map.mp later
        rfl
  · rfl
  · rfl

/-- The tags of a construct inside a tree that was parsed are tokens of its text. -/
theorem sublist_contentTokens {limit : Int} {text : String} {node : Node} {tags : List Token}
    (inside : node ∈ (parse limit text).subnodes) (own : tags.Sublist node.tokens)
    (genuine : ∀ tag ∈ tags, tag.genuine = true) : tags.Sublist (contentTokens text) := by
  have held : tags.Sublist (parse limit text).tokens := own.trans (Node.tokens_sublist inside)
  have kept := held.filter Token.genuine
  rwa [List.filter_eq_self.mpr genuine, genuine_parse] at kept

/-- Only the tree of the empty text is empty text, at the start. -/
theorem parse_eq_empty_iff (limit : Int) (text : String) (span : Span) :
    parse limit text = .raw "" span ↔ text = "" ∧ span = .empty .start := by
  -- The tree of a text without content is read off the end of the text alone.
  have anchored : ∀ {text}, contentTokens text = [] →
      parse limit text = .raw "" (.empty (placeAt text text.length)) := by
    intro text nothing
    obtain ⟨stop, split, tree, -⟩ := parse_eq_finish limit text
    have stands : stop = placeAt text text.length := stop_of_endOfText (by simp [split])
    rw [tree, assembled, nothing, ← stands]
    rfl
  have unread : contentTokens "" = [] := by decide +kernel
  constructor
  · intro nothing
    have content : contentTokens text = [] := by
      rw [← genuine_parse limit text, nothing]
      rfl
    have same : text = "" := by
      rw [← join_raw_contentTokens text, content]
      rfl
    subst same
    have tree := anchored content
    rw [nothing] at tree
    exact ⟨rfl, (Node.raw.inj tree).2⟩
  · rintro ⟨rfl, rfl⟩
    exact anchored unread

/-- Where a run keeps the end of the text, it is a sequence that ends with it. -/
theorem ofRun_eq_of_end {front : List Node} {count : Nat} {ending token : Token} {anchor : Span}
    (unkept : ∀ node ∈ front, node.Throughout Node.Inside) (nonempty : 0 < count → front ≠ [])
    (kept : .unexpected token ∈
      (Node.ofRun anchor (front ++ List.replicate count (.unexpected ending))).subnodes)
    (atEnd : token.lexeme = .endOfText) :
    Node.ofRun anchor (front ++ List.replicate count (.unexpected ending)) =
      .concat (front ++ List.replicate count (.unexpected token)) := by
  have elsewhere : ∀ node ∈ front, .unexpected token ∉ node.subnodes :=
    fun node member inside => unkept node member _ inside token rfl atEnd
  cases count with
  | zero =>
    rw [List.replicate_zero, List.append_nil] at kept
    have without : (Node.ofRun anchor front).Throughout Node.Inside :=
      Node.throughout_ofRun unkept nofun fun _ => nofun
    exact absurd atEnd (without _ kept token rfl)
  | succ count =>
    have several : 2 ≤ (front ++ List.replicate (count + 1) (Node.unexpected ending)).length := by
      have some := List.length_pos_iff.mpr (nonempty count.succ_pos)
      rw [List.length_append, List.length_replicate]
      omega
    rw [Node.ofRun_eq_concat several, Node.subnodes_concat] at kept
    rw [Node.ofRun_eq_concat several]
    rcases List.mem_cons.mp kept with same | deeper
    · contradiction
    · obtain ⟨node, member, inside⟩ := List.mem_flatMap.mp deeper
      rcases List.mem_append.mp member with early | last
      · exact absurd inside (elsewhere node early)
      · rw [List.eq_of_mem_replicate last] at inside
        have same : token = ending := Node.unexpected.inj (List.mem_singleton.mp inside)
        rw [same]

/-- The tree of a text is in the form of parsed trees, whatever the text and the limit are. -/
theorem parse_formOf (limit : Int) (text : String) : (parse limit text).FormOf limit text := by
  obtain ⟨stop, front, count, -, tree, pieces, nonempty⟩ := parse_eq_pieces limit text
  have ended : ∀ node ∈ List.replicate count (Node.unexpected ⟨.endOfText, .empty stop⟩),
      node = .unexpected ⟨.endOfText, .empty stop⟩ := fun node member =>
    List.eq_of_mem_replicate member
  have single : ∀ node ∈ front ++ List.replicate count (.unexpected ⟨.endOfText, .empty stop⟩),
      node.Single := by
    intro node member
    rcases List.mem_append.mp member with piece | last
    · exact (pieces node piece).single
    · rw [ended node last]
      simp [Node.Single, Node.kind]
  have regular : (parse limit text).Throughout Node.Regular := by
    rw [tree]
    refine Node.throughout_ofRun (fun node member => ?_) trivial fun several => ⟨several, single⟩
    rcases List.mem_append.mp member with piece | last
    · exact (pieces node piece).regular
    · rw [ended node last]
      exact (Node.throughout_unexpected ..).mpr rfl
  have nesting : (parse limit text).nesting ≤ limit.toNat := by
    rw [tree]
    refine Node.nesting_ofRun_le (fun node member => ?_) _
    rcases List.mem_append.mp member with piece | last
    · exact (pieces node piece).nesting_le
    · rw [ended node last]
      exact Nat.zero_le _
  constructor
  case flat =>
    intro children inside
    obtain ⟨several, each⟩ := regular _ inside
    exact ⟨several, fun child member => (each child member).1⟩
  case nesting_le => omega
  case loop_tags =>
    intro var path opening closing body inside
    refine sublist_contentTokens inside ?_ (by simp [Token.genuine])
    exact (List.sublist_append_right _ _).cons_cons _
  case choice_tags =>
    intro branches otherwise closing inside
    obtain ⟨some, -⟩ := regular _ inside
    obtain ⟨first, more, rfl⟩ := List.exists_cons_of_ne_nil some
    exact ⟨some, Node.map_kind_choiceTags first more otherwise closing,
      sublist_contentTokens inside (Node.choiceTags_sublist ..) genuine_choiceTags⟩
  case empty_tree => exact parse_eq_empty_iff limit text
  case empty_child =>
    intro children inside span member
    exact ((regular _ inside).2 _ member).2 span rfl
  case empty_body =>
    intro node inside opening body member span nothing
    have own := regular _ inside
    cases node with
    | loop var path opening' closing body' =>
      obtain ⟨rfl, rfl⟩ := Prod.mk.inj (List.mem_singleton.mp member)
      exact own span nothing
    | choice branches otherwise closing => exact own.2 _ member span nothing
    | raw | invalid | use | unexpected | concat => contradiction
  case unexpected_kind =>
    intro token inside
    have tag : Node.leaf? token = none := regular _ inside
    obtain ⟨lexeme, span⟩ := token
    cases lexeme with
    | raw _ | invalid _ | use _ => exact absurd tag (Option.some_ne_none _)
    | endOfText | forStart _ _ | forEnd | ifStart _ | elifTag _ | elseTag | ifEnd =>
      simp [Token.kind, Lexeme.kind]
  case ends_last =>
    intro token inside atEnd
    rw [tree] at inside ⊢
    have unkept : ∀ node ∈ front, node.Throughout Node.Inside :=
      fun node member => (pieces node member).inside
    exact ⟨front, count, ofRun_eq_of_end unkept nonempty inside atEnd, unkept⟩

end TextTemplate.Expression
