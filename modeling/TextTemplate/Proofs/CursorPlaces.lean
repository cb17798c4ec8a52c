import Mathlib.Logic.Function.Iterate
import TextTemplate.Proofs.TokenPositions

/-!
# Where a cursor is and what it captures

Places are moved on by the texts that are read past, and a text in two parts moves a place on as its
parts do in turn. A cursor that passes one character after the other is therefore always at the
place that all characters passed lead to at once. From any place where it was before it captures
what lies in between.

Only marks that were passed are captured from here; one that lies ahead is refused.
-/

namespace TextTemplate.Text.Cursor

/-- Moving past characters is passing one character as often. -/
theorem advanceBy_eq_iterate (n : Nat) (c : Cursor) : c.advanceBy n = advance^[n] c := by
  induction n generalizing c with
  | zero => rfl
  | succ n ih => rw [advanceBy, ih, Function.iterate_succ_apply]

/-- Passing characters in turn moves forward. -/
theorem onward_iterate (n : Nat) (c : Cursor) : c.Onward (advance^[n] c) := by
  rw [← advanceBy_eq_iterate]
  exact onward_advanceBy n c

/-- Behind `n` characters of a text all others are left. -/
theorem rest_iterate (text : String) (n : Nat) :
    (advance^[n] (ofText text)).rest = text.toList.drop n := by
  rw [← advanceBy_eq_iterate, rest_advanceBy]
  rfl

/-- Behind `n` characters of a text the offset is `n`, and at the end it stops growing. -/
theorem offset_iterate (text : String) (n : Nat) :
    (advance^[n] (ofText text)).pos.offset = min n text.length := by
  have parts := (onward_iterate n (ofText text)).offset_add_rest
  rw [rest_iterate, List.length_drop, String.length_toList] at parts
  omega

/-- Behind `n` characters of a text the cursor is at the place that they lead to at once. -/
theorem pos_iterate (text : String) (n : Nat) :
    (advance^[n] (ofText text)).pos =
      Pos.start.after (text.toList.take (min n text.length)) := by
  rw [(onward_iterate n (ofText text)).pos_eq_placeAt, offset_iterate, placeAt]

/-- Behind `n` characters of a text the cursor is in front of the next one, if there is one. -/
theorem current?_iterate (text : String) (n : Nat) :
    (advance^[n] (ofText text)).current? = text.toList[n]? := by
  rw [current?, rest_iterate, List.head?_drop]

/-- From a place where the cursor was, it captures the characters passed since then. -/
theorem capture_iterate (c : Cursor) (more : Nat) :
    (advance^[more] c).capture c.pos =
        .ok ⟨.ofList (c.rest.take more), c.pos, c.pos.after (c.rest.take more)⟩ ∧
      (advance^[more] c).pos = c.pos.after (c.rest.take more) := by
  have before : (advance^[more] c).before = (c.rest.take more).reverse ++ c.before := by
    rw [← advanceBy_eq_iterate, before_advanceBy]
  constructor
  · rw [(onward_iterate more c).capture_eq, since_eq before]
  · exact pos_eq_after before

/-- Texts act on places, and cursors follow. Reading nothing stays in place, and reading a text in
two parts leads where its second part leads from where the first one did. A cursor that has passed
`n` characters from the start of a text, or all of them where there are fewer, is at the place
reached by reading them at once, in front of the next one. When it has moved on from there, it
captures exactly the characters in between, and the span ends at the cursor, which is where reading
what the span covers leads from the mark. -/
theorem follows_places :
    (∀ (pos : Pos) (front back : String), pos.after "".toList = pos ∧
      pos.after (front ++ back).toList = (pos.after front.toList).after back.toList) ∧
    ∀ (text : String) (n : Nat),
      (advance^[n] (ofText text)).pos =
        Pos.start.after (text.toList.take (min n text.length)) ∧
      (advance^[n] (ofText text)).current? = text.toList[n]? ∧
      ∀ more, ∃ span,
        (advance^[n + more] (ofText text)).capture (advance^[n] (ofText text)).pos = .ok span ∧
          span.start = (advance^[n] (ofText text)).pos ∧
          span.raw.toList = (text.toList.take (n + more)).drop n ∧
          span.stop = span.start.after span.raw.toList ∧
          span.stop = (advance^[n + more] (ofText text)).pos := by
  refine ⟨fun pos front back => ⟨pos.after_nil, ?_⟩,
    fun text n => ⟨pos_iterate text n, current?_iterate text n, fun more => ?_⟩⟩
  · rw [String.toList_append, Pos.after_append]
  · obtain ⟨captured, reached⟩ := capture_iterate (advance^[n] (ofText text)) more
    rw [← Function.iterate_add_apply, Nat.add_comm more n] at captured reached
    refine ⟨_, captured, rfl, ?_, ?_, reached.symm⟩
    · rw [String.toList_ofList, rest_iterate, List.take_drop]
    · rw [String.toList_ofList]

end TextTemplate.Text.Cursor
