import Mathlib.Data.List.Nodup
import TextTemplate.Data.Entries

/-!
# Maps that have every name once

A list of names with values may hold a name twice, but no map does that was filled by giving names
their values in turn. In a map that has every name once, each entry is the one that its name is
looked up at, and filling a map with such entries gives them back in their order.
-/

namespace TextTemplate.Data.Entries

variable {β : Type}

/-- Every name stands in the map once. -/
def Distinct (entries : Entries β) : Prop := entries.names.Nodup

instance (entries : Entries β) : Decidable entries.Distinct :=
  inferInstanceAs (Decidable entries.names.Nodup)

/-- A name that is given a value is not there twice afterwards. -/
theorem Distinct.insert {entries : Entries β} (distinct : entries.Distinct) (name : String)
    (value : β) : (entries.insert name value).Distinct := by
  rw [Distinct, names_insert]
  split
  · exact distinct
  · next new =>
    have apart : ∀ known ∈ entries.names, ∀ other ∈ [name], known ≠ other := by
      rintro known member other single rfl
      obtain rfl := List.mem_singleton.mp single
      exact new member
    exact List.nodup_append.mpr ⟨distinct, List.nodup_singleton name, apart⟩

/-- Giving names their values in turn, no name comes to stand twice. -/
theorem Distinct.foldl {entries : Entries β} (distinct : entries.Distinct)
    (pairs : List (String × β)) :
    Distinct (pairs.foldl (fun entries pair => Entries.insert pair.1 pair.2 entries) entries) := by
  induction pairs generalizing entries with
  | nil => exact distinct
  | cons pair more ih => exact ih (distinct.insert pair.1 pair.2)

/-- A map that was filled has every name once. -/
theorem distinct_ofPairs (pairs : List (String × β)) : (ofPairs pairs).Distinct := by
  have nothing : Distinct ([] : Entries β) := List.nodup_nil
  exact nothing.foldl pairs

/-- Giving a name a value adds no other entry. -/
theorem mem_insert {entries : Entries β} {name : String} {value : β} {entry : String × β}
    (member : entry ∈ entries.insert name value) : entry = (name, value) ∨ entry ∈ entries := by
  induction entries with
  | nil => exact .inl (List.mem_singleton.mp member)
  | cons first more ih =>
    obtain ⟨known, old⟩ := first
    rw [insert] at member
    split at member
    · next same =>
      rcases List.mem_cons.mp member with rfl | later
      · exact .inl (by rw [same])
      · exact .inr (List.mem_cons_of_mem _ later)
    · rcases List.mem_cons.mp member with rfl | later
      · exact .inr (List.mem_cons_self ..)
      · exact (ih later).imp id (List.mem_cons_of_mem _)

/-- Giving names their values in turn adds no other entries. -/
theorem mem_foldl_insert {entries : Entries β} {pairs : List (String × β)} {entry : String × β}
    (member : entry ∈ pairs.foldl (fun entries pair => insert pair.1 pair.2 entries) entries) :
    entry ∈ pairs ∨ entry ∈ entries := by
  induction pairs generalizing entries with
  | nil => exact .inr member
  | cons pair more ih =>
    rcases ih member with later | earlier
    · exact .inl (List.mem_cons_of_mem _ later)
    · rcases mem_insert earlier with rfl | known
      · exact .inl (List.mem_cons_self ..)
      · exact .inr known

/-- A map that was filled has no other entries than it was filled with. -/
theorem mem_ofPairs {pairs : List (String × β)} {entry : String × β}
    (member : entry ∈ ofPairs pairs) : entry ∈ pairs := by
  have nothing : entry ∉ ([] : Entries β) := List.not_mem_nil
  exact (mem_foldl_insert member).resolve_right nothing

/-- A new name goes to the end. -/
theorem insert_of_new {entries : Entries β} {name : String} (new : name ∉ entries.names)
    (value : β) : entries.insert name value = entries ++ [(name, value)] := by
  induction entries with
  | nil => rfl
  | cons entry more ih =>
    obtain ⟨known, old⟩ := entry
    simp only [names, List.map_cons, List.mem_cons, not_or] at new
    have other : known ≠ name := fun same => new.1 same.symm
    rw [insert, if_neg other, ih new.2, List.cons_append]

/-- Names that are all new go to the end one after the other. -/
theorem foldl_insert_of_distinct {entries pairs : Entries β}
    (distinct : Distinct (entries ++ pairs)) :
    pairs.foldl (fun entries pair => insert pair.1 pair.2 entries) entries = entries ++ pairs := by
  induction pairs generalizing entries with
  | nil => exact (List.append_nil entries).symm
  | cons pair more ih =>
    obtain ⟨name, value⟩ := pair
    have parts : (entries.names ++ name :: more.map (·.1)).Nodup := by
      simpa [Distinct, names] using distinct
    have new : name ∉ entries.names := by
      intro known
      exact (List.nodup_append.mp parts).2.2 name known name (List.mem_cons_self ..) rfl
    have whole : entries ++ (name, value) :: more = (entries ++ [(name, value)]) ++ more := by
      rw [List.append_assoc, List.singleton_append]
    rw [List.foldl_cons, insert_of_new new, ih (whole ▸ distinct), whole]

/-- Filling a map with entries that have every name once gives them back in order. -/
theorem ofPairs_of_distinct {pairs : Entries β} (distinct : pairs.Distinct) :
    ofPairs pairs = pairs :=
  foldl_insert_of_distinct distinct

/-- An entry of a map that has every name once is the one its name is looked up at. -/
theorem Distinct.find?_eq {entries : Entries β} (distinct : entries.Distinct) {name : String}
    {value : β} (member : (name, value) ∈ entries) : entries.find? name = some value := by
  induction entries with
  | nil => nomatch member
  | cons entry more ih =>
    obtain ⟨known, old⟩ := entry
    obtain ⟨new, others⟩ := List.nodup_cons.mp distinct
    rcases List.mem_cons.mp member with same | later
    · obtain ⟨rfl, rfl⟩ := Prod.mk.inj same
      rw [find?, if_pos rfl]
    · have other : known ≠ name := by
        rintro rfl
        exact new (List.mem_map.mpr ⟨_, later, rfl⟩)
      rw [find?, if_neg other]
      exact ih others later

/-- What a name is looked up at is the value of one of the entries. -/
theorem mem_of_find? {entries : Entries β} {name : String} {value : β}
    (found : entries.find? name = some value) : (name, value) ∈ entries := by
  induction entries with
  | nil => nomatch found
  | cons entry more ih =>
    obtain ⟨known, old⟩ := entry
    rw [find?] at found
    split at found
    · next same =>
      obtain rfl := Option.some.inj found
      exact same ▸ List.mem_cons_self ..
    · exact List.mem_cons_of_mem _ (ih found)

end TextTemplate.Data.Entries
