import TextTemplate.Proofs.DistinctNames
import TextTemplate.Data.Value

/-!
# The values inside a value

A value is listed in front of all values inside it. What a path leads to lies inside the value it
starts from, so nothing comes out of a context along a path that does not lie inside the context.
Values of which every map has each name once are told apart from the others here.
-/

namespace TextTemplate.Data

namespace Value

mutual

/-- A value and all values inside it. -/
def inside : Value → List Value
  | .text content => [.text content]
  | .list items => .list items :: itemsInside items
  | .map fields => .map fields :: fieldsInside fields

/-- Values in a row and all values inside them. -/
def itemsInside : List Value → List Value
  | [] => []
  | item :: more => item.inside ++ itemsInside more

/-- The values of entries in a row and all values inside them. -/
def fieldsInside : List (String × Value) → List Value
  | [] => []
  | (_, value) :: more => value.inside ++ fieldsInside more

end

/-- Proves a property of all values from the values inside. -/
@[elab_as_elim]
theorem inductionOn {motive : Value → Prop} (value : Value)
    (text : ∀ content, motive (.text content))
    (list : ∀ items, (∀ item ∈ items, motive item) → motive (.list items))
    (map : ∀ fields : List (String × Value), (∀ entry ∈ fields, motive entry.2) →
      motive (.map fields)) : motive value :=
  @Value.rec motive
    (fun items => ∀ item ∈ items, motive item)
    (fun fields => ∀ entry ∈ fields, motive entry.2)
    (fun entry => motive entry.2)
    text list map
    (List.forall_mem_nil _)
    (fun _ _ first more => List.forall_mem_cons.mpr ⟨first, more⟩)
    (List.forall_mem_nil _)
    (fun _ _ first more => List.forall_mem_cons.mpr ⟨first, more⟩)
    (fun _ _ own => own)
    value

/-- Values in a row contribute what is inside them. -/
theorem itemsInside_eq_flatMap (items : List Value) : itemsInside items = items.flatMap inside := by
  induction items with
  | nil => rfl
  | cons item more ih => rw [itemsInside, ih, List.flatMap_cons]

/-- Entries in a row contribute what is inside their values. -/
theorem fieldsInside_eq_flatMap (fields : List (String × Value)) :
    fieldsInside fields = fields.flatMap fun entry => entry.2.inside := by
  induction fields with
  | nil => rfl
  | cons entry more ih => rw [fieldsInside, ih, List.flatMap_cons]

/-- A value is listed among the values inside it. -/
theorem mem_inside_self (value : Value) : value ∈ value.inside := by
  cases value <;> exact List.mem_cons_self ..

variable {value inner deeper : Value}

/-- The values inside a list are the list and those inside its items. -/
theorem mem_inside_list {items : List Value} :
    inner ∈ (list items).inside ↔ inner = .list items ∨ ∃ item ∈ items, inner ∈ item.inside := by
  rw [inside, itemsInside_eq_flatMap, List.mem_cons, List.mem_flatMap]

/-- The values inside a map are the map and those inside the values of its entries. -/
theorem mem_inside_map {fields : List (String × Value)} :
    inner ∈ (map fields).inside ↔
      inner = .map fields ∨ ∃ entry ∈ fields, inner ∈ entry.2.inside := by
  rw [inside, fieldsInside_eq_flatMap, List.mem_cons, List.mem_flatMap]

/-- What lies inside a value inside lies inside. -/
theorem mem_inside_trans (outer : inner ∈ value.inside) (within : deeper ∈ inner.inside) :
    deeper ∈ value.inside := by
  induction value using inductionOn with
  | text content =>
    obtain rfl := List.mem_singleton.mp outer
    exact within
  | list items ih =>
    rcases mem_inside_list.mp outer with rfl | ⟨item, member, own⟩
    · exact within
    · exact mem_inside_list.mpr (.inr ⟨item, member, ih item member own⟩)
  | map fields ih =>
    rcases mem_inside_map.mp outer with rfl | ⟨entry, member, own⟩
    · exact within
    · exact mem_inside_map.mpr (.inr ⟨entry, member, ih entry member own⟩)

/-- A part of a value lies inside it. -/
theorem mem_inside_of_part? {name : String} (found : value.part? name = some inner) :
    inner ∈ value.inside := by
  cases value with
  | text content => nomatch found
  | list items =>
    obtain ⟨index, -, there⟩ := Option.bind_eq_some_iff.mp found
    exact mem_inside_list.mpr (.inr ⟨inner, List.mem_of_getElem? there, mem_inside_self inner⟩)
  | map fields =>
    have member : (name, inner) ∈ fields := Entries.mem_of_find? found
    exact mem_inside_map.mpr (.inr ⟨(name, inner), member, mem_inside_self inner⟩)

/-- What a path leads to lies inside the value it starts from. -/
theorem mem_inside_of_resolve? {steps : List String} (led : value.resolve? steps = some inner) :
    inner ∈ value.inside := by
  induction steps generalizing value with
  | nil =>
    obtain rfl := Option.some.inj led
    exact mem_inside_self _
  | cons name more ih =>
    obtain ⟨next, found, on⟩ := Option.bind_eq_some_iff.mp led
    exact mem_inside_trans (mem_inside_of_part? found) (ih on)

/-- The names of a map itself; other values have none. -/
def names : Value → List String
  | .map fields => Entries.names fields
  | .text _ | .list _ => []

/-- Every map inside the value has every name once. -/
def Distinct (value : Value) : Prop := ∀ inner ∈ value.inside, inner.names.Nodup

instance (value : Value) : Decidable value.Distinct :=
  inferInstanceAs (Decidable (∀ inner ∈ value.inside, inner.names.Nodup))

/-- A text has no names. -/
theorem distinct_text (content : String) : (text content).Distinct := by
  intro inner member
  obtain rfl := List.mem_singleton.mp member
  exact List.nodup_nil

/-- In a list every name stands once in its map when this is so in the items. -/
theorem distinct_list {items : List Value} :
    (list items).Distinct ↔ ∀ item ∈ items, item.Distinct := by
  constructor
  · exact fun distinct item member inner own =>
      distinct inner (mem_inside_list.mpr (.inr ⟨item, member, own⟩))
  · intro each inner member
    rcases mem_inside_list.mp member with rfl | ⟨item, known, own⟩
    · exact List.nodup_nil
    · exact each item known inner own

/-- In a map every name stands once in its map when the map has every name once and this is so in
the values of its entries. -/
theorem distinct_map {fields : List (String × Value)} :
    (map fields).Distinct ↔ Entries.Distinct fields ∧ ∀ entry ∈ fields, entry.2.Distinct := by
  constructor
  · intro distinct
    refine ⟨distinct _ (mem_inside_self _), fun entry member inner own => ?_⟩
    exact distinct inner (mem_inside_map.mpr (.inr ⟨entry, member, own⟩))
  · rintro ⟨own, each⟩ inner member
    rcases mem_inside_map.mp member with rfl | ⟨entry, known, within⟩
    · exact own
    · exact each entry known inner within

end Value

end TextTemplate.Data
