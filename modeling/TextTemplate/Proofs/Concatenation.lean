import TextTemplate.Proofs.CleanBoundary
import TextTemplate.Proofs.MovedTrees
import TextTemplate.Proofs.Persistence
import TextTemplate.Proofs.SpanIndependence
import TextTemplate.Proofs.Underlay

/-!
# Joined templates

A text with nothing left open at its end is assembled as if nothing stood behind it, and what stands
behind is assembled on top of it as if nothing stood in front. So the text of both templates joined
is the text of the one followed by the text of the other. Stray closers, constructs that fell apart
and constructs nested too deep may stand on either side.
-/

namespace TextTemplate

open Data Expression Markup Text

namespace Expression

/-- The text of a run is made of the texts of its expressions. -/
theorem Node.render_ofRun (anchor : Span) (nodes : List Node) (context : Context) :
    (ofRun anchor nodes).render context = .join (nodes.map (·.render context)) := by
  match nodes with
  | [] => rfl
  | [node] => simp [ofRun]
  | first :: second :: more =>
    have together : ofRun anchor (first :: second :: more) = concat (first :: second :: more) := rfl
    rw [together, render, renderAll_eq_join]

namespace State

/-- A construct is flattened only inside of as many others as the limit admits. -/
def FlattensDeep (limit : Int) (state : State) : Prop :=
  0 < state.surplus → limit ≤ state.frames.length

/-- Every token keeps to flattening deep inside only. -/
theorem FlattensDeep.move {limit : Int} {state state' : State} {token : Token}
    {notices : List Notice} (deep : FlattensDeep limit state)
    (moved : Move limit state token state' notices) : FlattensDeep limit state' := by
  cases moved with
  | flattened frames run surplus token => exact fun _ => deep surplus.succ_pos
  | tooDeep frames run opens beyond => exact fun _ => beyond
  | leaf | opened | stray | closedLoop | furtherBranch | lastBranch | closedBranch
  | closedAlternative | abandoned => exact fun positive => absurd positive (Nat.lt_irrefl 0)

end State

/-- Where constructs may be opened at all, a text whose tree does not hold the end of the text as an
unexpected token leaves nothing open in front of its end, and nothing to be flattened. -/
theorem assembled_of_closed {limit : Int} {text : String} (positive : 1 ≤ limit)
    (closed : ∀ span, .unexpected ⟨.endOfText, span⟩ ∉ (parse limit text).subnodes) :
    assembled limit text = ⟨[], (assembled limit text).run, 0⟩ := by
  obtain ⟨stop, -, tree, -⟩ := parse_eq_finish limit text
  have shut : (assembled limit text).frames = [] := by
    by_contra opened
    have spreads := Node.spreads_mem_subnodes (.unexpected ⟨.endOfText, .empty stop⟩)
    have left := State.among_finish_of_open (.unexpected ⟨.endOfText, .empty stop⟩ ∈ ·.subnodes)
      (Node.mem_subnodes_self _) opened
    have inside := spreads.ofRun (.empty stop) ((Node.among_reverse _ _).mpr left)
    rw [← tree] at inside
    exact closed _ inside
  have start : State.FlattensDeep limit .initial := fun flat => absurd flat (Nat.lt_irrefl 0)
  have deep : State.FlattensDeep limit (assembled limit text) :=
    State.foldl_keeps .move start fun _ member => (proper_of_mem_contentTokens member).not_end
  have balanced : (assembled limit text).surplus = 0 := by
    by_contra flat
    have beyond := deep (Nat.pos_of_ne_zero flat)
    rw [shut, List.length_nil] at beyond
    omega
  calc assembled limit text
    _ = ⟨(assembled limit text).frames, (assembled limit text).run,
          (assembled limit text).surplus⟩ := rfl
    _ = ⟨[], (assembled limit text).run, 0⟩ := by rw [shut, balanced]

/-- The nodes that tokens leave outside of all constructs, the newest first. -/
def runOf (limit : Int) (tokens : List Token) : List Node :=
  (tokens.foldl (State.step limit) .initial).run

/-- The text of a tree is made of the texts of the nodes outside of all constructs. -/
theorem render_ofTokens (limit : Int) (tokens : List Token) (context : Context) :
    (Node.ofTokens limit tokens).render context =
      .join ((runOf limit tokens).reverse.map (·.render context)) :=
  Node.render_ofRun _ _ context

/-- Read to its end, a text finishes what was assembled in front of that end. -/
theorem foldl_tokenize (limit : Int) (text : String) :
    ∃ stop, (tokenize text).foldl (State.step limit) .initial =
      (assembled limit text).finish ⟨.endOfText, .empty stop⟩ := by
  obtain ⟨⟨stop, split⟩, -, -⟩ := contentTokens_spec text
  refine ⟨stop, ?_⟩
  rw [split, List.foldl_append, List.foldl_cons, List.foldl_nil, State.step, if_pos rfl]
  rfl

variable {limit : Int} {text : String}

/-- With nothing open in front of it, the end of a text adds no node. -/
theorem runOf_tokenize (shut : assembled limit text = ⟨[], (assembled limit text).run, 0⟩) :
    runOf limit (tokenize text) = (assembled limit text).run := by
  obtain ⟨stop, finished⟩ := foldl_tokenize limit text
  rw [runOf, finished, shut]
  rfl

/-- Behind a text with nothing left open, the tokens of another one are assembled on top. -/
theorem runOf_append (shut : assembled limit text = ⟨[], (assembled limit text).run, 0⟩)
    (more : String) : runOf limit (contentTokens text ++ tokenize more) =
      runOf limit (tokenize more) ++ runOf limit (tokenize text) := by
  have under : (⟨[], (assembled limit text).run, 0⟩ : State) =
      State.atop (assembled limit text).run .initial := rfl
  obtain ⟨stop, finished⟩ := foldl_tokenize limit more
  have fronts : (contentTokens text).foldl (State.step limit) .initial =
      State.atop (assembled limit text).run .initial := shut.trans under
  rw [runOf_tokenize shut, runOf, runOf, List.foldl_append, fronts, State.foldl_step_atop,
    finished]
  rfl

end Expression

/-- Templates concatenate. Two texts are joined where the boundary cuts no token, and the first one
leaves no construct open: its tree does not hold the end of the text as an unexpected token. Then
the joined text gives what the first one gives under the same context, followed by what the second
one gives. No more is asked for: stray closers, constructs that fell apart and constructs nested too
deep may stand in both, and the second text may leave constructs open. -/
theorem renderText_append {limit : Int} {text more : String} (positive : 1 ≤ limit)
    (closed : ∀ span, .unexpected ⟨.endOfText, span⟩ ∉ (parse limit text).subnodes)
    (clean : CleanBoundary text more) (context : Context) :
    renderText limit (text ++ more) context =
      renderText limit text context ++ renderText limit more context := by
  have shut := assembled_of_closed positive closed
  have same := bare_tokenize_append clean
  have nonempty : tokenize (text ++ more) ≠ [] := by
    simpa [tokenize, readings] using readingsFrom_ne_nil _
  have shape := shape_ofTokens limit same nonempty
  calc renderText limit (text ++ more) context
    _ = (Node.ofTokens limit (contentTokens text ++ tokenize more)).render context :=
      Node.render_of_shape _ context _ shape
    _ = .join ((runOf limit (tokenize more) ++ runOf limit (tokenize text)).reverse.map
          (·.render context)) := by
      rw [render_ofTokens, runOf_append shut]
    _ = .join ((runOf limit (tokenize text)).reverse.map (·.render context)) ++
          .join ((runOf limit (tokenize more)).reverse.map (·.render context)) := by
      rw [List.reverse_append, List.map_append, String.join_append]
    _ = renderText limit text context ++ renderText limit more context := by
      rw [← render_ofTokens, ← render_ofTokens]
      rfl

/-- A text that ends with an unfinished tag may be joined with one that starts with a brace: the tag
stays unfinished. The first text holds a stray closer and a conditional nested too deep; the second
one holds a stray closer and a loop that is left open. -/
theorem renderText_append_unfinished_tag :
    let text := statement "endfor" ++ statement "for x in xs" ++ statement "if x" ++ "a" ++
      statement "endif" ++ statement "endfor" ++ "\x7b% if"
    let more := interpolation "x" ++ statement "endif" ++ statement "for y in xs"
    (∀ span, .unexpected ⟨.endOfText, span⟩ ∉ (parse 1 text).subnodes) ∧
      CleanBoundary text more ∧
      ∀ context, renderText 1 (text ++ more) context =
        renderText 1 text context ++ renderText 1 more context := by
  intro text more
  have closed (span : Span) : .unexpected ⟨.endOfText, span⟩ ∉ (parse 1 text).subnodes := by
    have absent : .node (.unexpected .endOfText "") [] ∉ (parse 1 text).subnodes.map Node.shape := by
      decide +kernel
    exact fun member => absent (List.mem_map_of_mem member)
  have ends : (contentTokens text).getLast? =
      some ⟨.invalid "\x7b% if", ⟨"\x7b% if", ⟨63, 1, 64⟩, ⟨68, 1, 69⟩⟩⟩ := by
    decide +kernel
  have clean : CleanBoundary text more := .beforeBrace ends (by decide) (by decide +kernel)
  exact ⟨closed, clean, renderText_append (by decide) closed clean⟩

end TextTemplate
