import TextTemplate.Expression.Node

/-!
# Deciding whether two trees are equal

Equality of trees compares everything, spans included. The comparison walks both trees at once,
and is shown to answer exactly whether they are the same.
-/

namespace TextTemplate.Expression.Node

mutual

/-- Whether two expressions are the same. -/
def same : Node → Node → Bool
  | .raw text span, .raw text' span' => text == text' && span == span'
  | .invalid text span, .invalid text' span' => text == text' && span == span'
  | .use path span, .use path' span' => path == path' && span == span'
  | .unexpected token, .unexpected token' => token == token'
  | .loop var path opening closing body, .loop var' path' opening' closing' body' =>
    var == var' && path == path' && opening == opening' && closing == closing' && same body body'
  | .choice branches otherwise closing, .choice branches' otherwise' closing' =>
    sameBranches branches branches' && sameAlternative otherwise otherwise' && closing == closing'
  | .concat children, .concat children' => sameAll children children'
  | _, _ => false

/-- Whether two rows of branches are the same. -/
def sameBranches : List (Branch Node) → List (Branch Node) → Bool
  | [], [] => true
  | ⟨path, span, body⟩ :: more, ⟨path', span', body'⟩ :: more' =>
    path == path' && span == span' && same body body' && sameBranches more more'
  | _, _ => false

/-- Whether two optional alternatives are the same. -/
def sameAlternative : Option (Alternative Node) → Option (Alternative Node) → Bool
  | none, none => true
  | some ⟨span, body⟩, some ⟨span', body'⟩ => span == span' && same body body'
  | _, _ => false

/-- Whether two rows of expressions are the same. -/
def sameAll : List Node → List Node → Bool
  | [], [] => true
  | node :: more, node' :: more' => same node node' && sameAll more more'
  | _, _ => false

end

/-- Comparing rows of expressions decides equality where comparing their members does. -/
theorem sameAll_iff {nodes : List Node}
    (members : ∀ node ∈ nodes, ∀ other, same node other = true ↔ node = other)
    (others : List Node) : sameAll nodes others = true ↔ nodes = others := by
  induction nodes generalizing others with
  | nil => cases others <;> simp [sameAll]
  | cons node more ih =>
    cases others with
    | nil => simp [sameAll]
    | cons other others =>
      simp [sameAll, members node (by simp), ih fun n h => members n (List.mem_cons_of_mem _ h)]

/-- Comparing rows of branches decides equality where comparing their bodies does. -/
theorem sameBranches_iff {branches : List (Branch Node)}
    (members : ∀ branch ∈ branches, ∀ other, same branch.body other = true ↔ branch.body = other)
    (others : List (Branch Node)) : sameBranches branches others = true ↔ branches = others := by
  induction branches generalizing others with
  | nil => cases others <;> simp [sameBranches]
  | cons branch more ih =>
    cases others with
    | nil => simp [sameBranches]
    | cons other others =>
      obtain ⟨path, span, body⟩ := branch
      obtain ⟨path', span', body'⟩ := other
      have bodies := members ⟨path, span, body⟩ (by simp) body'
      simp only at bodies
      simp [sameBranches, bodies, ih fun b h => members b (List.mem_cons_of_mem _ h), and_assoc]

/-- Comparing alternatives decides equality where comparing their bodies does. -/
theorem sameAlternative_iff {otherwise : Option (Alternative Node)}
    (member : ∀ alternative, otherwise = some alternative →
      ∀ other, same alternative.body other = true ↔ alternative.body = other)
    (other : Option (Alternative Node)) :
    sameAlternative otherwise other = true ↔ otherwise = other := by
  match otherwise, other with
  | none, none => simp [sameAlternative]
  | none, some _ => simp [sameAlternative]
  | some _, none => simp [sameAlternative]
  | some ⟨span, body⟩, some ⟨span', body'⟩ =>
    have bodies := member ⟨span, body⟩ rfl body'
    simp only at bodies
    simp [sameAlternative, bodies]

/-- The comparison answers whether two expressions are equal. -/
theorem same_iff (node other : Node) : same node other = true ↔ node = other := by
  induction node using inductionOn generalizing other with
  | raw text span => cases other <;> simp [same]
  | invalid text span => cases other <;> simp [same]
  | use path span => cases other <;> simp [same]
  | unexpected token => cases other <;> simp [same]
  | loop var path opening closing body ih => cases other <;> simp [same, ih, and_assoc]
  | choice branches otherwise closing bodies alternative =>
    cases other <;>
      simp [same, sameBranches_iff bodies, sameAlternative_iff alternative, and_assoc]
  | concat children ih => cases other <;> simp [same, sameAll_iff ih]

/-- Expressions are compared in full, spans included. -/
instance : DecidableEq Node := fun node other =>
  decidable_of_iff (same node other = true) (same_iff node other)

end TextTemplate.Expression.Node
