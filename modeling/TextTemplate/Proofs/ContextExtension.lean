import TextTemplate.Evaluation.Decision

/-!
# Contexts that know more

A context extends another one when every name bound there is bound to the same value here. What the
smaller context knows stays true: paths lead to the same values and conditions decide alike. Where
the smaller one knows nothing, the decision goes on in the wider one.
-/

namespace TextTemplate.Data.Context

open Markup

/-- Every name bound in `context` is bound to the same value in `wider`. -/
def Extends (wider context : Context) : Prop :=
  ∀ name value, Entries.find? name context.fields = some value →
    Entries.find? name wider.fields = some value

/-- The first name of a path leads to what is bound to it, the others lead on from there. -/
theorem resolve?_path (context : Context) (path : Path) :
    context.resolve? path.parts =
      (Entries.find? path.root context.fields).bind (Value.resolve? path.steps) :=
  rfl

/-- Under the empty context no path leads anywhere. -/
theorem resolve?_empty (path : Path) : Context.empty.resolve? path.parts = none :=
  rfl

/-- A path that starts with a name just bound leads into the value of that name, and any other
path leads where it did before. -/
theorem resolve?_bind (name : String) (value : Value) (context : Context) (path : Path) :
    (context.bind name value).resolve? path.parts =
      if path.root = name then value.resolve? path.steps else context.resolve? path.parts := by
  rw [resolve?_path, resolve?_path, Context.bind, Entries.find?_insert]
  split <;> rfl

variable {wider context : Context}

/-- Binding a name that was not bound extends a context. -/
theorem extends_bind {name : String} (new : Entries.find? name context.fields = none)
    (value : Value) : (context.bind name value).Extends context := by
  intro other known found
  rw [Context.bind, Entries.find?_insert]
  split
  · next same =>
    rw [same, new] at found
    contradiction
  · exact found

/-- What a path leads to stays the same. -/
theorem Extends.resolve? (grown : wider.Extends context) {path : Path} {value : Value}
    (found : context.resolve? path.parts = some value) :
    wider.resolve? path.parts = some value := by
  rw [resolve?_path] at found ⊢
  obtain ⟨start, bound, led⟩ := Option.bind_eq_some_iff.mp found
  rw [grown path.root start bound]
  exact led

/-- Binding the same on top of both keeps one context an extension of the other. -/
theorem Extends.bind (grown : wider.Extends context) (name : String) (value : Value) :
    (wider.bind name value).Extends (context.bind name value) := by
  intro other known found
  rw [Context.bind, Entries.find?_insert] at found ⊢
  split at found
  · next same => rwa [if_pos same]
  · next different =>
    rw [if_neg different]
    exact grown other known found

end TextTemplate.Data.Context

namespace TextTemplate.Evaluation

open Data Markup

/-- The same decision with failing conditions in front. -/
def Decision.shift (count : Nat) : Decision → Decision
  | .undecided index => .undecided (count + index)
  | .taken index => .taken (count + index)
  | .exhausted => .exhausted

/-- Without conditions in front the decision is the same. -/
@[simp] theorem Decision.shift_zero (choice : Decision) : choice.shift 0 = choice := by
  cases choice <;> simp [shift]

/-- One more failing condition is put in front of the others. -/
theorem Decision.next_shift (count : Nat) (choice : Decision) :
    (choice.shift count).next = choice.shift (count + 1) := by
  cases choice <;> simp [shift, next] <;> omega

/-- With one more failing condition in front, a decision is undecided where it was, one further. -/
theorem Decision.next_eq_undecided {choice : Decision} {index : Nat} :
    choice.next = .undecided index ↔ ∃ before, choice = .undecided before ∧ index = before + 1 := by
  cases choice <;> simp [next, eq_comm]

section

variable {context : Context} {path : Path} {value : Value}

/-- An unknown condition leaves the decision open. -/
theorem decision_of_unknown (unknown : context.resolve? path.parts = none) (more : List Path) :
    decision context (path :: more) = .undecided 0 := by
  rw [decision, unknown]

/-- A condition that holds is taken. -/
theorem decision_of_holds (found : context.resolve? path.parts = some value)
    (holds : value.truthy = true) (more : List Path) :
    decision context (path :: more) = .taken 0 := by
  rw [decision, found]
  exact if_pos holds

/-- A condition that fails leaves the decision to the others. -/
theorem decision_of_fails (found : context.resolve? path.parts = some value)
    (fails : ¬value.truthy = true) (more : List Path) :
    decision context (path :: more) = (decision context more).next := by
  rw [decision, found]
  exact if_neg fails

end

/-- A wider context takes the same branch, and goes on where the smaller one was undecided. -/
theorem decision_extends {wider context : Context} (grown : wider.Extends context)
    (paths : List Path) :
    decision wider paths =
      match decision context paths with
      | .undecided index => (decision wider (paths.drop index)).shift index
      | .taken index => .taken index
      | .exhausted => .exhausted := by
  induction paths with
  | nil => rfl
  | cons path more ih =>
    cases found : context.resolve? path.parts with
    | none =>
      rw [decision_of_unknown found]
      exact (Decision.shift_zero _).symm
    | some value =>
      have found' := grown.resolve? found
      by_cases holds : value.truthy
      · rw [decision_of_holds found holds, decision_of_holds found' holds]
      · rw [decision_of_fails found holds, decision_of_fails found' holds, ih]
        cases decision context more with
        | undecided index => exact Decision.next_shift index _
        | taken index => rfl
        | exhausted => rfl

end TextTemplate.Evaluation
