import TextTemplate.Proofs.BlockAssembly
import TextTemplate.Proofs.LogRecords

/-!
# Well-formed templates that nest too deep

A well-formed template that nests deeper than the limit is cut off exactly at the limit. A block
inside as many others as the limit allows is replaced by its own tokens in the row around it; what
is above it and what follows it is read as without a limit. The log holds a warning for every block
that is replaced, in their order, and no other warning.

Nothing is said here about templates that are not well-formed.
-/

namespace TextTemplate.Expression

open Text Markup

/-- The tokens of a derivation of any depth are assembled into its tree cut off at the limit, with a
notice on every block that is cut off. -/
theorem parse_of_rowTokens (limit : Int) {text : String} {row : List Block}
    (derives : Block.rowTokens row = contentTokens text) :
    ∃ stop, tokenize text = contentTokens text ++ [⟨.endOfText, .empty stop⟩] ∧
      parse limit text = .ofRun (.empty stop) (Block.rowCut row limit.toNat) ∧
      parseNotices limit text = (Block.rowReplaced row limit.toNat).map (.tooDeep limit) := by
  obtain ⟨stop, split, tree, notices⟩ := parse_eq_finish limit text
  have each : ∀ block ∈ row, block.Truncates limit := fun block _ => block.truncates
  have read := Block.reads_rowTokens each [] [] (Nat.zero_add limit.toNat)
  rw [derives, List.append_nil] at read
  obtain ⟨reached, noticed⟩ := read
  -- No construct is open behind the derivation, so the end of the text takes nothing apart.
  have state : assembled limit text = ⟨[], (Block.rowCut row limit.toNat).reverse, 0⟩ := reached
  refine ⟨stop, split, ?_, ?_⟩
  · rw [tree, state, State.finish, List.foldl_nil, List.reverse_reverse]
  · rw [notices, state, List.map_nil, List.append_nil]
    exact noticed

/-- The depth limit cuts a well-formed template off exactly at the limit, whatever its depth is. The
tree is that of the derivation with every block inside `limit` others replaced by its own tokens,
and one warning is logged for each of them, in order, with the line and the text of its opening
tag. -/
theorem parse_cuts_blocks (limit : Int) {text : String} {row : List Block}
    (derives : Block.rowTokens row = contentTokens text) :
    (∃ stop, tokenize text = contentTokens text ++ [⟨.endOfText, .empty stop⟩] ∧
      parse limit text = .ofRun (.empty stop) (Block.rowCut row limit.toNat)) ∧
    (Log.parseRecords limit text).filter (·.level = .warning) =
      (Block.rowReplaced row limit.toNat).map fun opener =>
        ⟨.tree, .warning, "Template nesting exceeds " ++ toString limit ++ " levels at line "
          ++ toString opener.span.start.line ++ "; not parsing " ++ quoted opener.canonical⟩ := by
  obtain ⟨stop, split, tree, notices⟩ := parse_of_rowTokens limit derives
  constructor
  · exact ⟨stop, split, tree⟩
  · have all : ∀ notice ∈ parseNotices limit text, Log.noticeLevel notice = .warning := by
      rw [notices, List.forall_mem_map]
      exact fun _ _ => rfl
    rw [parseRecords_warnings, List.filter_eq_self.mpr (by simpa using all), notices, List.map_map]
    rfl

/-- With room for one level, the conditional inside the loop is replaced by its tags and what is
between them, with a warning about its if tag in the second line. -/
theorem parse_cuts_conditional_in_loop :
    let text := statement "for x in xs" ++ "\n" ++ statement "if x" ++ interpolation "x" ++
      statement "else" ++ statement "endif" ++ statement "endfor"
    let path : Path := ⟨"xs", [], ⟨"xs", ⟨12, 1, 13⟩, ⟨14, 1, 15⟩⟩⟩
    let condition : Path := ⟨"x", [], ⟨"x", ⟨24, 2, 7⟩, ⟨25, 2, 8⟩⟩⟩
    let value : Block :=
      .use ⟨"x", [], ⟨"x", ⟨31, 2, 14⟩, ⟨32, 2, 15⟩⟩⟩ ⟨interpolation "x", ⟨28, 2, 11⟩, ⟨35, 2, 18⟩⟩
    let choice : Block :=
      .choice ⟨condition, ⟨statement "if x", ⟨18, 2, 1⟩, ⟨28, 2, 11⟩⟩, [value]⟩ []
        (some ⟨⟨statement "else", ⟨35, 2, 18⟩, ⟨45, 2, 28⟩⟩, []⟩)
        ⟨statement "endif", ⟨45, 2, 28⟩, ⟨56, 2, 39⟩⟩
    let row : List Block :=
      [.loop ⟨"x", ⟨"x", ⟨7, 1, 8⟩, ⟨8, 1, 9⟩⟩⟩ path
        ⟨statement "for x in xs", .start, ⟨17, 1, 18⟩⟩
        ⟨statement "endfor", ⟨56, 2, 39⟩, ⟨68, 2, 51⟩⟩
        [.raw "\n" ⟨"\n", ⟨17, 1, 18⟩, ⟨18, 2, 1⟩⟩, choice]]
    Block.rowTokens row = contentTokens text ∧
      (∃ stop, tokenize text = contentTokens text ++ [⟨.endOfText, .empty stop⟩] ∧
        parse 1 text = .ofRun (.empty stop) (Block.rowCut row 1)) ∧
      (Log.parseRecords 1 text).filter (·.level = .warning) =
        [⟨.tree, .warning, "Template nesting exceeds " ++ toString (1 : Int) ++
          " levels at line " ++ toString 2 ++ "; not parsing " ++ quoted (statement "if x")⟩] := by
  intro text path condition value choice row
  have derives : Block.rowTokens row = contentTokens text := by decide +kernel
  obtain ⟨tree, warned⟩ := parse_cuts_blocks 1 derives
  exact ⟨derives, tree, warned⟩

end TextTemplate.Expression
