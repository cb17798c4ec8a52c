import Mathlib.Logic.ExistsUnique
import TextTemplate.Log.Readers
import TextTemplate.Proofs.NestedReaders

/-!
# The lines of readers that call one another

A reader that starts leaves a line in brackets, and one with an arrow when it comes back, both
behind two blanks for every reader that is at work around it. So the lines of a row of calls tell
from their blanks alone which two of them belong together: behind the line of a start, the first
line that is not indented further is the one of the return. No two such pairs of lines cross.
-/

namespace TextTemplate.Log

open Markup Text

/-- The line of a reader that starts, while `depth` others are at work. -/
def entryLine (depth : Nat) (reader : Reader) (pos : Pos) (next : Option Char) : String :=
  indentation depth ++ "[" ++ readerLabel reader ++ "] at " ++ describePlace pos next

/-- The line of a reader that comes back, while `depth` others are at work. -/
def returnLine (depth : Nat) (outcome : Outcome) : String :=
  indentation depth ++ "=> " ++ clipped (describeOutcome outcome)

/-- The lines of calls that follow each other while `depth` readers are at work. The lines of the
calls that a reader makes itself stand between its own two, one level deeper. -/
inductive Calls : Nat → List String → Prop
  /-- No reader starts. -/
  | nil {depth : Nat} : Calls depth []
  /-- A reader starts, calls others and comes back, and others follow. -/
  | call {depth : Nat} (reader : Reader) (pos : Pos) (next : Option Char) (outcome : Outcome)
      {inner more : List String} : Calls (depth + 1) inner → Calls depth more →
      Calls depth (entryLine depth reader pos next :: (inner ++ returnLine depth outcome :: more))

/-- Readers that all came back leave the count of those at work as it was. -/
theorem eventMessages_append {events : List Event} (nested : Nested events) (depth : Nat)
    (more : List Event) :
    eventMessages depth (events ++ more) = eventMessages depth events ++ eventMessages depth more := by
  induction nested generalizing depth more with
  | nil => rfl
  | call reader pos next outcome _ _ inside behind =>
    simp only [List.cons_append, List.append_assoc, eventMessages, inside (depth + 1), behind,
      Nat.add_sub_cancel]

/-- Readers that all came back leave the lines of calls. -/
theorem calls_of_nested {events : List Event} (nested : Nested events) (depth : Nat) :
    Calls depth (eventMessages depth events) := by
  induction nested generalizing depth with
  | nil => exact .nil
  | call reader pos next outcome inner _ inside behind =>
    rw [eventMessages, eventMessages_append inner, eventMessages, Nat.add_sub_cancel]
    exact .call reader pos next outcome (inside (depth + 1)) (behind depth)

/-- The number of blanks that a line starts with. -/
def indent (line : String) : Nat := (line.toList.takeWhile (· = ' ')).length

/-- The line notes the start of a reader: behind the blanks it goes on with a bracket. -/
def Opens (line : String) : Prop := (line.toList.dropWhile (· = ' ')).head? = some '['

/-- The line notes the return of a reader: behind the blanks it goes on with an arrow. -/
def Returns (line : String) : Prop := (line.toList.dropWhile (· = ' ')).take 3 = ['=', '>', ' ']

/-- Behind the blanks of an indentation a line goes on as it would without them. -/
theorem blanks_indentation (depth : Nat) {line : String} {first : Char} {more : List Char}
    (starts : line.toList = first :: more) (visible : first ≠ ' ') :
    indent (indentation depth ++ line) = 2 * depth ∧
      (indentation depth ++ line).toList.dropWhile (· = ' ') = line.toList := by
  have blanks : ∀ char ∈ List.replicate (2 * depth) ' ', decide (char = ' ') = true :=
    fun char member => decide_eq_true (List.eq_of_mem_replicate member)
  have whole : (indentation depth ++ line).toList = List.replicate (2 * depth) ' ' ++ line.toList :=
    by simp [indentation]
  have stops : decide (first = ' ') = false := decide_eq_false visible
  constructor
  · rw [indent, whole, List.takeWhile_append_of_pos blanks, starts, List.takeWhile_cons_of_neg]
    · simp
    · simp [stops]
  · rw [whole, List.dropWhile_append_of_pos blanks, starts, List.dropWhile_cons_of_neg]
    simp [stops]

/-- The line of a start stands behind two blanks for each reader at work. -/
theorem entryLine_spec (depth : Nat) (reader : Reader) (pos : Pos) (next : Option Char) :
    indent (entryLine depth reader pos next) = 2 * depth ∧
      Opens (entryLine depth reader pos next) := by
  have line : entryLine depth reader pos next = indentation depth ++
      ("[" ++ (readerLabel reader ++ ("] at " ++ describePlace pos next))) := by
    simp only [entryLine, String.append_assoc]
  have starts : ("[" ++ (readerLabel reader ++ ("] at " ++ describePlace pos next))).toList =
      '[' :: (readerLabel reader ++ ("] at " ++ describePlace pos next)).toList := by simp
  obtain ⟨level, behind⟩ := blanks_indentation depth starts (by decide)
  rw [line]
  refine ⟨level, ?_⟩
  rw [Opens, behind, starts]
  rfl

/-- The line of a return stands behind two blanks for each reader at work. -/
theorem returnLine_spec (depth : Nat) (outcome : Outcome) :
    indent (returnLine depth outcome) = 2 * depth ∧ Returns (returnLine depth outcome) := by
  have line : returnLine depth outcome =
      indentation depth ++ ("=> " ++ clipped (describeOutcome outcome)) := by
    simp only [returnLine, String.append_assoc]
  have starts : ("=> " ++ clipped (describeOutcome outcome)).toList =
      '=' :: '>' :: ' ' :: (clipped (describeOutcome outcome)).toList := by simp
  obtain ⟨level, behind⟩ := blanks_indentation depth starts (by decide)
  rw [line]
  refine ⟨level, ?_⟩
  rw [Returns, behind, starts]
  rfl

/-- No line notes both a start and a return. -/
theorem Opens.not_returns {line : String} (opens : Opens line) : ¬Returns line := by
  intro returns
  rw [Opens] at opens
  rw [Returns] at returns
  cases rest : line.toList.dropWhile (· = ' ') with
  | nil => simp [rest] at opens
  | cons first more =>
    rw [rest, List.head?_cons, Option.some.injEq] at opens
    rw [rest, List.take_succ_cons, List.cons.injEq, opens] at returns
    exact absurd returns.1 (by decide)

/-- No line of a call stands in front of its level. -/
theorem Calls.le_indent {depth : Nat} {lines : List String} (calls : Calls depth lines) :
    ∀ line ∈ lines, 2 * depth ≤ indent line := by
  induction calls with
  | nil => exact List.forall_mem_nil _
  | @call depth reader pos next outcome inner more _ _ inside behind =>
    have deeper : ∀ line ∈ inner, 2 * depth ≤ indent line := by
      intro line member
      have level := inside line member
      omega
    rw [List.forall_mem_cons, List.forall_mem_append, List.forall_mem_cons]
    have first := (entryLine_spec depth reader pos next).1
    have last := (returnLine_spec depth outcome).1
    exact ⟨by omega, deeper, by omega, behind⟩

/-- The lines at two places belong to one call: a reader starts, and behind lines that are indented
further it comes back. -/
structure Pair (lines : List String) (i j : Nat) (entry ret : String) : Prop where
  /-- The first line is in its place. -/
  entered : lines[i]? = some entry
  /-- The second line is in its place. -/
  returned : lines[j]? = some ret
  /-- The reader starts before it comes back. -/
  before : i < j
  /-- The first line notes a start. -/
  opens : Opens entry
  /-- The second line notes a return. -/
  returns : Returns ret
  /-- Both lines are indented alike. -/
  level : indent ret = indent entry
  /-- The lines in between are indented by two blanks more, or further. -/
  between : ∀ k line, i < k → k < j → lines[k]? = some line → indent entry + 2 ≤ indent line

namespace Pair

variable {lines : List String} {i j i' j' : Nat} {entry ret entry' ret' : String}

/-- A start has no return before the one that belongs to it. -/
theorem not_lt (pair : Pair lines i j entry ret) (other : Pair lines i j' entry' ret') :
    ¬j < j' := by
  intro earlier
  obtain rfl : entry = entry' := Option.some.inj (pair.entered.symm.trans other.entered)
  have deeper := other.between j ret pair.before earlier pair.returned
  have level := pair.level
  omega

/-- Two lines that belong to the same start are one. -/
theorem return_unique (pair : Pair lines i j entry ret) (other : Pair lines i j' entry' ret') :
    j' = j := by
  have one := pair.not_lt other
  have two := other.not_lt pair
  omega

/-- A return has no start behind the one that belongs to it. -/
theorem not_gt (pair : Pair lines i j entry ret) (other : Pair lines i' j entry' ret') :
    ¬i' < i := by
  intro earlier
  obtain rfl : ret = ret' := Option.some.inj (pair.returned.symm.trans other.returned)
  have deeper := other.between i entry earlier pair.before pair.entered
  have level := pair.level
  have level' := other.level
  omega

/-- Two lines that belong to the same return are one. -/
theorem entry_unique (pair : Pair lines i j entry ret) (other : Pair lines i' j entry' ret') :
    i' = i := by
  have one := pair.not_gt other
  have two := other.not_gt pair
  omega

/-- A reader that starts inside a call comes back inside it. -/
theorem nested (pair : Pair lines i j entry ret) (inner : Pair lines i' j' entry' ret')
    (behind : i < i') (inside : i' < j) : j' < j := by
  have deeper := pair.between i' entry' behind inside inner.entered
  have level := pair.level
  have level' := inner.level
  -- The outer return can neither be the inner one nor stand in front of it: it is indented too little.
  rcases Nat.lt_trichotomy j' j with earlier | rfl | beyond
  · exact earlier
  · obtain rfl : ret = ret' := Option.some.inj (pair.returned.symm.trans inner.returned)
    omega
  · have crossed := inner.between j ret inside beyond pair.returned
    omega

/-- Lines that belong together do so among further lines. -/
theorem surrounded (pair : Pair lines i j entry ret) (front back : List String) :
    Pair (front ++ (lines ++ back)) (front.length + i) (front.length + j) entry ret := by
  obtain ⟨last, -⟩ := List.getElem?_eq_some_iff.mp pair.returned
  have same (k : Nat) (inside : k < lines.length) :
      (front ++ (lines ++ back))[front.length + k]? = lines[k]? := by
    rw [List.getElem?_append_right (Nat.le_add_right _ _), Nat.add_sub_cancel_left,
      List.getElem?_append_left inside]
  have before := pair.before
  refine ⟨?_, ?_, by omega, pair.opens, pair.returns, pair.level, fun k line behind ahead there => ?_⟩
  · rw [same i (by omega), pair.entered]
  · rw [same j last, pair.returned]
  · obtain ⟨inner, rfl⟩ : ∃ inner, k = front.length + inner := ⟨k - front.length, by omega⟩
    rw [same inner (by omega)] at there
    exact pair.between inner line (by omega) (by omega) there

end Pair

section call

variable {depth : Nat} {reader : Reader} {pos : Pos} {next : Option Char} {outcome : Outcome}
  {inner more : List String}

/-- The two lines of a call belong together. -/
theorem pair_call (inside : Calls (depth + 1) inner) :
    Pair (entryLine depth reader pos next :: (inner ++ returnLine depth outcome :: more)) 0
      (inner.length + 1) (entryLine depth reader pos next) (returnLine depth outcome) := by
  obtain ⟨level, opens⟩ := entryLine_spec depth reader pos next
  obtain ⟨level', returns⟩ := returnLine_spec depth outcome
  refine ⟨rfl, ?_, Nat.succ_pos _, opens, returns, level'.trans level.symm,
    fun k line behind ahead there => ?_⟩
  · rw [List.getElem?_cons_succ, List.getElem?_append_right (Nat.le_refl _), Nat.sub_self]
    rfl
  · obtain ⟨place, rfl⟩ : ∃ place, k = place + 1 := ⟨k - 1, by omega⟩
    rw [List.getElem?_cons_succ, List.getElem?_append_left (by omega)] at there
    have deeper := inside.le_indent line (List.mem_of_getElem? there)
    omega

/-- A line of a call that is followed by others is the one of the start, one of those in between,
the one of the return, or one of the others. -/
theorem place_cases {entry ret line : String} {i : Nat}
    (there : (entry :: (inner ++ ret :: more))[i]? = some line) :
    (i = 0 ∧ line = entry) ∨ (∃ k, i = 1 + k ∧ inner[k]? = some line) ∨
      (i = inner.length + 1 ∧ line = ret) ∨
      ∃ k, i = inner.length + 2 + k ∧ more[k]? = some line := by
  cases i with
  | zero => exact .inl ⟨rfl, (Option.some.inj there).symm⟩
  | succ k =>
    rw [List.getElem?_cons_succ] at there
    rcases Nat.lt_or_ge k inner.length with inside | behind
    · rw [List.getElem?_append_left inside] at there
      exact .inr (.inl ⟨k, Nat.add_comm .., there⟩)
    · rw [List.getElem?_append_right behind] at there
      obtain ⟨rest, rfl⟩ : ∃ rest, k = inner.length + rest := ⟨k - inner.length, by omega⟩
      rw [Nat.add_sub_cancel_left] at there
      cases rest with
      | zero => exact .inr (.inr (.inl ⟨rfl, (Option.some.inj there).symm⟩))
      | succ rest => exact .inr (.inr (.inr ⟨rest, by omega, there⟩))

/-- Lines that belong together inside a call do so in the lines of the call. -/
theorem Pair.inside {i j : Nat} {entry ret entry' ret' : String}
    (pair : Pair inner i j entry ret) :
    Pair (entry' :: (inner ++ ret' :: more)) (1 + i) (1 + j) entry ret :=
  pair.surrounded [entry'] (ret' :: more)

/-- Lines that belong together behind a call do so in the lines of both. -/
theorem Pair.behind {i j : Nat} {entry ret entry' ret' : String}
    (pair : Pair more i j entry ret) :
    Pair (entry' :: (inner ++ ret' :: more)) (inner.length + 2 + i) (inner.length + 2 + j) entry
      ret := by
  have whole := pair.surrounded (entry' :: (inner ++ [ret'])) []
  simpa using whole

end call

/-- Among the lines of calls, every start has its return. -/
theorem Calls.exists_return {depth : Nat} {lines : List String} (calls : Calls depth lines) {i : Nat}
    {entry : String} (there : lines[i]? = some entry) (opens : Opens entry) :
    ∃ j ret, Pair lines i j entry ret := by
  induction calls generalizing i with
  | nil => nomatch there
  | @call depth reader pos next outcome inner more calls _ inside behind =>
    rcases place_cases there with ⟨rfl, rfl⟩ | ⟨k, rfl, within⟩ | ⟨rfl, rfl⟩ | ⟨k, rfl, later⟩
    · exact ⟨_, _, pair_call calls⟩
    · obtain ⟨j, ret, pair⟩ := inside within
      exact ⟨_, ret, pair.inside⟩
    · exact absurd (returnLine_spec depth outcome).2 opens.not_returns
    · obtain ⟨j, ret, pair⟩ := behind later
      exact ⟨_, ret, pair.behind⟩

/-- Among the lines of calls, every return has its start. -/
theorem Calls.exists_entry {depth : Nat} {lines : List String} (calls : Calls depth lines) {j : Nat}
    {ret : String} (there : lines[j]? = some ret) (returns : Returns ret) :
    ∃ i entry, Pair lines i j entry ret := by
  induction calls generalizing j with
  | nil => nomatch there
  | @call depth reader pos next outcome inner more calls _ inside behind =>
    rcases place_cases there with ⟨rfl, rfl⟩ | ⟨k, rfl, within⟩ | ⟨rfl, rfl⟩ | ⟨k, rfl, later⟩
    · exact absurd returns (entryLine_spec depth reader pos next).2.not_returns
    · obtain ⟨i, entry, pair⟩ := inside within
      exact ⟨_, entry, pair.inside⟩
    · exact ⟨_, _, pair_call calls⟩
    · obtain ⟨i, entry, pair⟩ := behind later
      exact ⟨_, entry, pair.behind⟩

/-- A reader that starts inside no call stands at the level of the calls. -/
theorem Calls.indent_of_outermost {depth : Nat} {lines : List String} (calls : Calls depth lines)
    {i : Nat} {entry : String} (there : lines[i]? = some entry) (opens : Opens entry)
    (outermost : ∀ a b first last, Pair lines a b first last → a < i → ¬i < b) :
    indent entry = 2 * depth := by
  induction calls generalizing i with
  | nil => nomatch there
  | @call depth reader pos next outcome inner more calls _ _ behind =>
    rcases place_cases there with ⟨rfl, rfl⟩ | ⟨k, rfl, within⟩ | ⟨rfl, rfl⟩ | ⟨k, rfl, later⟩
    · exact (entryLine_spec depth reader pos next).1
    · obtain ⟨short, -⟩ := List.getElem?_eq_some_iff.mp within
      have around := outermost 0 (inner.length + 1) _ _ (pair_call calls) (by omega)
      omega
    · exact absurd (returnLine_spec depth outcome).2 opens.not_returns
    · refine behind later fun a b first last pair earlier => ?_
      have apart := outermost _ _ first last pair.behind (by omega)
      omega

/-- A reader that starts inside a call, and inside no further one within that call, is indented by
two blanks more than the reader that called it. -/
theorem Calls.indent_of_innermost {depth : Nat} {lines : List String} (calls : Calls depth lines)
    {i j i' : Nat} {entry ret entry' : String} (pair : Pair lines i j entry ret)
    (there : lines[i']? = some entry') (opens : Opens entry') (behind : i < i') (inside : i' < j)
    (innermost : ∀ a b first last, Pair lines a b first last → i < a → a < i' → ¬i' < b) :
    indent entry' = indent entry + 2 := by
  induction calls generalizing i j i' ret with
  | nil => nomatch there
  | @call depth reader pos next outcome inner more calls others within later =>
    rcases place_cases pair.entered with ⟨rfl, rfl⟩ | ⟨k, rfl, own⟩ | ⟨rfl, rfl⟩ | ⟨k, rfl, own⟩
    · -- The call around the line is the first one, so the line stands directly inside of it.
      obtain rfl : inner.length + 1 = j := pair.return_unique (pair_call calls)
      obtain ⟨k, rfl⟩ : ∃ k, i' = k + 1 := ⟨i' - 1, by omega⟩
      rw [List.getElem?_cons_succ, List.getElem?_append_left (by omega)] at there
      have level := (entryLine_spec depth reader pos next).1
      have deeper : indent entry' = 2 * (depth + 1) := by
        refine calls.indent_of_outermost there opens fun a b first last other earlier => ?_
        have apart := innermost _ _ first last other.inside (by omega) (by omega)
        omega
      omega
    · obtain ⟨b, last, found⟩ := calls.exists_return own pair.opens
      obtain rfl : 1 + b = j := pair.return_unique found.inside
      obtain ⟨short, -⟩ := List.getElem?_eq_some_iff.mp found.returned
      obtain ⟨k', rfl⟩ : ∃ k', i' = k' + 1 := ⟨i' - 1, by omega⟩
      rw [List.getElem?_cons_succ, List.getElem?_append_left (by omega)] at there
      refine within found there (by omega) (by omega) fun a c first last other after before => ?_
      have apart := innermost (1 + a) (1 + c) first last other.inside (by omega) (by omega)
      omega
    · exact absurd (returnLine_spec depth outcome).2 pair.opens.not_returns
    · obtain ⟨b, last, found⟩ := others.exists_return own pair.opens
      obtain rfl : inner.length + 2 + b = j := pair.return_unique found.behind
      rcases place_cases there with ⟨rfl, -⟩ | ⟨k', rfl, early⟩ | ⟨rfl, -⟩ | ⟨k', rfl, late⟩
      · omega
      · obtain ⟨short, -⟩ := List.getElem?_eq_some_iff.mp early
        omega
      · omega
      · refine later found late (by omega) (by omega) fun a c first last other after before => ?_
        have apart := innermost _ _ first last other.behind (by omega) (by omega)
        omega

/-- The starts and the returns that lines note belong together in pairs that do not cross, and
blanks show which reader called which. -/
structure Paired (lines : List String) : Prop where
  /-- Every line notes a start or a return. -/
  kinds : ∀ line ∈ lines, Opens line ∨ Returns line
  /-- Every start has exactly one return. -/
  returned : ∀ i entry, lines[i]? = some entry → Opens entry → ∃! j, ∃ ret, Pair lines i j entry ret
  /-- Every return has exactly one start. -/
  entered : ∀ j ret, lines[j]? = some ret → Returns ret → ∃! i, ∃ entry, Pair lines i j entry ret
  /-- A reader that starts inside a call comes back inside it. -/
  nested : ∀ i j i' j' entry ret entry' ret', Pair lines i j entry ret →
    Pair lines i' j' entry' ret' → i < i' → i' < j → j' < j
  /-- A reader is indented by two blanks more than the one that called it. -/
  deeper : ∀ i j i' entry ret entry', Pair lines i j entry ret → lines[i']? = some entry' →
    Opens entry' → i < i' → i' < j →
    (∀ a b first last, Pair lines a b first last → i < a → a < i' → ¬i' < b) →
    indent entry' = indent entry + 2

/-- The lines of calls belong together in pairs. -/
theorem Calls.paired {depth : Nat} {lines : List String} (calls : Calls depth lines) :
    Paired lines where
  kinds := by
    induction calls with
    | nil => exact List.forall_mem_nil _
    | call reader pos next outcome _ _ inside behind =>
      rw [List.forall_mem_cons, List.forall_mem_append, List.forall_mem_cons]
      exact ⟨.inl (entryLine_spec ..).2, inside, .inr (returnLine_spec ..).2, behind⟩
  returned i entry there opens := by
    obtain ⟨j, ret, pair⟩ := calls.exists_return there opens
    exact ⟨j, ⟨ret, pair⟩, fun _ ⟨_, other⟩ => pair.return_unique other⟩
  entered j ret there returns := by
    obtain ⟨i, entry, pair⟩ := calls.exists_entry there returns
    exact ⟨i, ⟨entry, pair⟩, fun _ ⟨_, other⟩ => pair.entry_unique other⟩
  nested _ _ _ _ _ _ _ _ pair inner behind inside := pair.nested inner behind inside
  deeper _ _ _ _ _ _ pair there opens behind inside innermost :=
    calls.indent_of_innermost pair there opens behind inside innermost

end TextTemplate.Log
