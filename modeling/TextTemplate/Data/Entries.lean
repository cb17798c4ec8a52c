/-!
# Ordered maps

An ordered map is a list of names with their values, in the order in which the names were first
given. Giving a name again changes its value and keeps its place, so a map built by insertion has
every name once.
-/

namespace TextTemplate.Data

/-- Names with their values, in order. -/
abbrev Entries (β : Type) := List (String × β)

namespace Entries

variable {β : Type}

/-- Gives a name a value. A new name goes to the end; a known one keeps its place. -/
def insert (name : String) (value : β) : Entries β → Entries β
  | [] => [(name, value)]
  | (known, old) :: more =>
    if known = name then (known, value) :: more else (known, old) :: insert name value more

/-- The map that arises when names are given their values in turn. -/
def ofPairs (pairs : List (String × β)) : Entries β :=
  pairs.foldl (fun entries pair => insert pair.1 pair.2 entries) []

/-- The names of a map in order. -/
def names (entries : Entries β) : List String := entries.map (·.1)

/-- The value of a name, absent for an unknown one. -/
def find? (name : String) : Entries β → Option β
  | [] => none
  | (known, value) :: more => if known = name then some value else find? name more

/-- After a name was given a value it has that value, and the others are as before. -/
theorem find?_insert (name other : String) (value : β) (entries : Entries β) :
    find? other (insert name value entries) =
      if other = name then some value else find? other entries := by
  induction entries with
  | nil => simp [insert, find?, eq_comm]
  | cons entry more ih =>
    obtain ⟨known, old⟩ := entry
    by_cases same : known = name
    · subst same
      simp only [insert, find?, if_true, eq_comm]
      split <;> rfl
    · simp only [insert, find?, same, if_false, ih]
      by_cases target : known = other
      · subst target
        simp [same]
      · simp [target]

/-- Giving a name a value adds it at the end, unless it is known. -/
theorem names_insert (name : String) (value : β) (entries : Entries β) :
    names (insert name value entries) =
      if name ∈ names entries then names entries else names entries ++ [name] := by
  induction entries with
  | nil => simp [insert, names]
  | cons entry more ih =>
    obtain ⟨known, old⟩ := entry
    simp only [names] at ih ⊢
    by_cases same : known = name
    · simp [insert, same]
    · have other : name ≠ known := fun h => same h.symm
      simp only [insert, same, if_false, List.map_cons, ih, List.mem_cons, other, false_or]
      by_cases member : name ∈ more.map (·.1) <;> simp [member]

end Entries

end TextTemplate.Data
