import TextTemplate.Proofs.ReachableTrees

/-!
# Only the names mentioned matter

A path starts with a name that a context binds. So the text of an expression, and what is left of
it, hang on the values of the names that its paths start with, whatever else is bound and in
whatever order. Where none of these names is bound nothing is decided: the expression is left as it
is, and it is written out as its tokens in canonical form.
-/

namespace TextTemplate.Expression

open Data Evaluation Markup

/-- The names that the paths of an expression start with. -/
def Node.names (node : Node) : List String := node.mentions.map (·.root)

namespace Node

/-- The root of a path that is mentioned is a name that matters. -/
theorem root_mem_names {node : Node} {path : Path} (member : path ∈ node.mentions) :
    path.root ∈ node.names :=
  List.mem_map_of_mem member

/-- Contexts that have the same values for the names lead alike along the paths. -/
theorem alike_of_names {node : Node} {context context' : Context}
    (agree : ∀ name ∈ node.names,
      Entries.find? name context.fields = Entries.find? name context'.fields) :
    Alike node.mentions context context' := by
  intro path member
  rw [Context.resolve?_path, Context.resolve?_path, agree path.root (root_mem_names member)]

/-- A context that binds none of the names leads nowhere along the paths. -/
theorem resolve?_of_unbound {node : Node} {context : Context}
    (unbound : ∀ name ∈ node.names, Entries.find? name context.fields = none) :
    ∀ path ∈ node.mentions, context.resolve? path.parts = none := by
  intro path member
  rw [Context.resolve?_path, unbound path.root (root_mem_names member), Option.bind_none]

end Node

/-- Only the names mentioned matter. Two contexts with the same values for the names that the paths
of a reachable expression start with, or with none in both, give the same text and leave the same.
So where a context binds none of these names the expression is left as it is, and its text is its
leaves and tags from left to right, each in canonical form. -/
theorem Reachable.hangs_on_names {node : Node} (reachable : Reachable node) :
    (∀ context context' : Context,
      (∀ name ∈ node.names,
        Entries.find? name context.fields = Entries.find? name context'.fields) →
      node.render context = node.render context' ∧
        node.residual context = node.residual context') ∧
    ∀ context : Context,
      (∀ name ∈ node.names, Entries.find? name context.fields = none) →
      node.residual context = node ∧
        node.render context = .join (node.tokens.map Token.canonical) := by
  refine ⟨fun context context' agree => ?_, fun context unbound => ?_⟩
  · have alike := Node.alike_of_names agree
    exact ⟨node.render_congr _ _ alike, node.residual_congr _ _ alike⟩
  · have undecided := reachable.branched.undecided (Node.resolve?_of_unbound unbound)
    exact ⟨Node.residual_of_undecided undecided, Node.render_of_undecided undecided⟩

/-- What is left of a loop that was unrolled around a conditional mentions two names: that of its
condition, and that of the loop variable, which nothing binds any more. The two contexts bind other
names as well, one of them in front of the first. -/
theorem Reachable.hangs_on_names_of_leftover :
    let text := statement "for x in xs" ++ statement "if y" ++ interpolation "x" ++
      statement "endif" ++ statement "endfor"
    let node := (parse defaultNesting text).residual ⟨[("xs", .list [.text "a", .text "b"])]⟩
    let context : Context := ⟨[("y", .text "1"), ("xs", .text "c")]⟩
    let context' : Context := ⟨[("z", .list []), ("y", .text "1")]⟩
    let other : Context := ⟨[("xs", .text "d")]⟩
    Reachable node ∧
      (∀ name ∈ node.names,
        Entries.find? name context.fields = Entries.find? name context'.fields) ∧
      (∀ name ∈ node.names, Entries.find? name other.fields = none) ∧
      (node.render context = node.render context' ∧
        node.residual context = node.residual context') ∧
      node.residual other = node ∧
      node.render other = .join (node.tokens.map Token.canonical) := by
  intro text node context context' other
  have reachable : Reachable node := .residual _ (.parsed defaultNesting text)
  have agree : ∀ name ∈ node.names,
      Entries.find? name context.fields = Entries.find? name context'.fields := by decide +kernel
  have unbound : ∀ name ∈ node.names, Entries.find? name other.fields = none := by decide +kernel
  have hangs := reachable.hangs_on_names
  exact ⟨reachable, agree, unbound, hangs.1 context context' agree, hangs.2 other unbound⟩

end TextTemplate.Expression
