import Mathlib.Data.List.Forall2
import TextTemplate.Data.Plain
import TextTemplate.Proofs.ContainedValues

/-!
# Which plain data is converted, and to what

Conversion looks at plain data depth first. What it looks at is listed here apart from what it makes
of it: every piece of data in front of its parts, the key of an entry in front of its data, the
error in which going through an object ends, and no part of a value that was converted before. Data
is refused exactly when something in this list is at fault or raises an error of its own, and the
first such thing is reported. Otherwise the value mirrors the data, and every value is the mirror of
some data. How long a conversion takes, or how deep data may be, is not said here.
-/

namespace TextTemplate.Data

/-- Something that conversion looks at. -/
inductive Constituent where
  /-- A piece of plain data. -/
  | datum (datum : Datum)
  /-- The key of an entry. -/
  | key (key : Key)
  /-- The error in which going through an object ends. -/
  | ending (error : Raised)

namespace Constituent

/-- Why a constituent is refused on its own account, absent where it is not. -/
def fault? : Constituent → Option ConversionError
  | .datum (.scalar atom) => some (.unsupported atom.kind)
  | .datum (.object typeName none none) => some (.unsupported (.named typeName))
  | .datum (.object _ (some _) _) | .datum (.object _ none (some _)) => none
  | .datum (.text _) | .datum (.list _) | .datum (.tuple _) | .datum (.mapping _)
  | .datum (.value _) => none
  | .key (.text _) => none
  | .key other => some other.refusal
  | .ending error => some (.raised error)

end Constituent

namespace Datum

mutual

/-- The constituents of plain data, depth first. A value converted before is looked at and not
entered. -/
def constituents : Datum → List Constituent
  | .text content => [.datum (.text content)]
  | .scalar atom => [.datum (.scalar atom)]
  | .list items => .datum (.list items) :: itemConstituents items
  | .tuple items => .datum (.tuple items) :: itemConstituents items
  | .mapping entries => .datum (.mapping entries) :: entryConstituents entries
  | .value known => [.datum (.value known)]
  | .object typeName (some ⟨entries, raised?⟩) elements =>
    .datum (.object typeName (some ⟨entries, raised?⟩) elements) ::
      (entryConstituents entries ++ raised?.toList.map .ending)
  | .object typeName none (some ⟨items, raised?⟩) =>
    .datum (.object typeName none (some ⟨items, raised?⟩)) ::
      (itemConstituents items ++ raised?.toList.map .ending)
  | .object typeName none none => [.datum (.object typeName none none)]

/-- The constituents of plain data in a row. -/
def itemConstituents : List Datum → List Constituent
  | [] => []
  | datum :: more => datum.constituents ++ itemConstituents more

/-- The constituents of entries in a row, each key in front of its data. -/
def entryConstituents : List (Key × Datum) → List Constituent
  | [] => []
  | (key, datum) :: more => .key key :: (datum.constituents ++ entryConstituents more)

end

/-- What a conversion was refused for, absent where it was not. -/
def refusal? {α : Type} : Except ConversionError α → Option ConversionError
  | .ok _ => none
  | .error error => some error

/-- What is made of a result is refused for what the result is. -/
theorem refusal?_bind_pure {α β : Type} (result : Except ConversionError α) (make : α → β) :
    refusal? (result >>= fun value => pure (make value)) = refusal? result := by
  cases result <;> rfl

/-- What follows is refused for itself only when what comes first is not refused. -/
theorem refusal?_bind {α β : Type} (result : Except ConversionError α)
    {next : α → Except ConversionError β} {later : Option ConversionError}
    (same : ∀ value, refusal? (next value) = later) :
    refusal? (result >>= next) = (refusal? result).or later := by
  cases result with
  | error error => rfl
  | ok value => exact same value

/-- A traversal is refused for the error in which it ends. -/
theorem refusal?_finish {α : Type} (members : List α) (raised? : Option Raised) :
    refusal? (Traversal.mk members raised?).finish =
      (raised?.toList.map Constituent.ending).findSome? Constituent.fault? := by
  cases raised? <;> rfl

mutual

/-- Plain data is refused for the first constituent at fault. -/
theorem refusal?_toValue : ∀ datum : Datum,
    refusal? datum.toValue = datum.constituents.findSome? Constituent.fault?
  | .text _ | .scalar _ => rfl
  | .list items => by
    rw [toValue, refusal?_bind_pure, refusal?_toValues items]
    rfl
  | .tuple items => by
    rw [toValue, refusal?_bind_pure, refusal?_toValues items]
    rfl
  | .mapping entries => by
    rw [toValue, refusal?_bind_pure, refusal?_toFields entries]
    rfl
  | .value known => by
    rw [toValue, constituents]
    rfl
  | .object typeName (some ⟨entries, raised?⟩) elements => by
    have entered : (constituents (.object typeName (some ⟨entries, raised?⟩) elements)).findSome?
        Constituent.fault? = (entryConstituents entries ++
          raised?.toList.map Constituent.ending).findSome? Constituent.fault? := rfl
    rw [toValue, entered, List.findSome?_append, ← refusal?_toFields entries,
      ← refusal?_finish entries]
    exact refusal?_bind _ fun value => refusal?_bind_pure _ _
  | .object typeName none (some ⟨items, raised?⟩) => by
    have entered : (constituents (.object typeName none (some ⟨items, raised?⟩))).findSome?
        Constituent.fault? = (itemConstituents items ++
          raised?.toList.map Constituent.ending).findSome? Constituent.fault? := rfl
    rw [toValue, entered, List.findSome?_append, ← refusal?_toValues items,
      ← refusal?_finish items]
    exact refusal?_bind _ fun value => refusal?_bind_pure _ _
  | .object typeName none none => rfl

/-- Plain data in a row is refused for the first constituent at fault. -/
theorem refusal?_toValues : ∀ items : List Datum,
    refusal? (toValues items) = (itemConstituents items).findSome? Constituent.fault?
  | [] => rfl
  | datum :: more => by
    rw [toValues, itemConstituents, List.findSome?_append, ← refusal?_toValue datum,
      ← refusal?_toValues more]
    exact refusal?_bind _ fun value => refusal?_bind_pure _ _

/-- Entries are refused for the first constituent at fault. -/
theorem refusal?_toFields : ∀ entries : List (Key × Datum),
    refusal? (toFields entries) = (entryConstituents entries).findSome? Constituent.fault?
  | [] => rfl
  | (.scalar _, _) :: _ | (.tuple _, _) :: _ | (.object _, _) :: _ => rfl
  | (.text name, datum) :: more => by
    have admitted : (entryConstituents ((.text name, datum) :: more)).findSome? Constituent.fault? =
        (datum.constituents ++ entryConstituents more).findSome? Constituent.fault? := rfl
    rw [toFields, admitted, List.findSome?_append, ← refusal?_toValue datum,
      ← refusal?_toFields more]
    exact refusal?_bind _ fun value => refusal?_bind_pure _ _

end

mutual

/-- A value mirrors plain data: texts are the same, lists of either kind are lists of mirrored
items, mappings are filled with mirrored entries in their order, and values converted before are
kept. Any other object is mirrored as the mapping of its entries, or without these as the list of
its elements, if it comes to an end. -/
inductive Mirrors : Datum → Value → Prop
  /-- A text is kept. -/
  | text (content : String) : Mirrors (.text content) (.text content)
  /-- The items of a list are mirrored one by one. -/
  | list {items : List Datum} {values : List Value} :
      List.Forall₂ Mirrors items values → Mirrors (.list items) (.list values)
  /-- The items of a list of fixed length are mirrored one by one. -/
  | tuple {items : List Datum} {values : List Value} :
      List.Forall₂ Mirrors items values → Mirrors (.tuple items) (.list values)
  /-- The entries of a mapping are mirrored one by one. -/
  | mapping {entries : List (Key × Datum)} {pairs : List (String × Value)} :
      List.Forall₂ MirrorsEntry entries pairs →
      Mirrors (.mapping entries) (.map (Entries.ofPairs pairs))
  /-- A value converted before is kept. -/
  | value (known : Value) : Mirrors (.value known) known
  /-- The entries of an object are mirrored one by one, whatever else the object is. -/
  | offered (typeName : String) {entries : List (Key × Datum)} {pairs : List (String × Value)}
      (elements : Option (Traversal Datum)) : List.Forall₂ MirrorsEntry entries pairs →
      Mirrors (.object typeName (some ⟨entries, none⟩) elements) (.map (Entries.ofPairs pairs))
  /-- The elements of an object without entries are mirrored one by one. -/
  | listed (typeName : String) {items : List Datum} {values : List Value} :
      List.Forall₂ Mirrors items values →
      Mirrors (.object typeName none (some ⟨items, none⟩)) (.list values)

/-- A named value mirrors an entry: the key is the name, and the value mirrors the data. -/
inductive MirrorsEntry : Key × Datum → String × Value → Prop
  /-- A text is a name. -/
  | named (name : String) {datum : Datum} {value : Value} :
      Mirrors datum value → MirrorsEntry (.text name, datum) (name, value)

end

/-- A list is mirrored by the lists of what mirrors its items. -/
theorem mirrors_list_iff {items : List Datum} {value : Value} :
    Mirrors (.list items) value ↔ ∃ values, List.Forall₂ Mirrors items values ∧
      .list values = value := by
  constructor
  · rintro (_ | each)
    exact ⟨_, each, rfl⟩
  · rintro ⟨values, each, rfl⟩
    exact .list each

/-- A list of fixed length is mirrored by the lists of what mirrors its items. -/
theorem mirrors_tuple_iff {items : List Datum} {value : Value} :
    Mirrors (.tuple items) value ↔ ∃ values, List.Forall₂ Mirrors items values ∧
      .list values = value := by
  constructor
  · rintro (_ | _ | each)
    exact ⟨_, each, rfl⟩
  · rintro ⟨values, each, rfl⟩
    exact .tuple each

/-- A mapping is mirrored by the maps filled with what mirrors its entries. -/
theorem mirrors_mapping_iff {entries : List (Key × Datum)} {value : Value} :
    Mirrors (.mapping entries) value ↔ ∃ pairs, List.Forall₂ MirrorsEntry entries pairs ∧
      .map (Entries.ofPairs pairs) = value := by
  constructor
  · rintro (_ | _ | _ | each)
    exact ⟨_, each, rfl⟩
  · rintro ⟨pairs, each, rfl⟩
    exact .mapping each

/-- An object that offers entries is mirrored by the maps filled with what mirrors these, if they
come to an end. -/
theorem mirrors_offered_iff {typeName : String} {entries : List (Key × Datum)}
    {raised? : Option Raised} {elements : Option (Traversal Datum)} {value : Value} :
    Mirrors (.object typeName (some ⟨entries, raised?⟩) elements) value ↔
      ∃ pairs, List.Forall₂ MirrorsEntry entries pairs ∧ raised? = none ∧
        .map (Entries.ofPairs pairs) = value := by
  constructor
  · intro mirrors
    cases mirrors with
    | offered _ _ each => exact ⟨_, each, rfl, rfl⟩
  · rintro ⟨pairs, each, rfl, rfl⟩
    exact .offered typeName elements each

/-- A list of a type of its own is mirrored by the lists of what mirrors its elements, if these come
to an end. -/
theorem mirrors_listed_iff {typeName : String} {items : List Datum} {raised? : Option Raised}
    {value : Value} :
    Mirrors (.object typeName none (some ⟨items, raised?⟩)) value ↔
      ∃ values, List.Forall₂ Mirrors items values ∧ raised? = none ∧ .list values = value := by
  constructor
  · intro mirrors
    cases mirrors with
    | listed _ each => exact ⟨_, each, rfl, rfl⟩
  · rintro ⟨values, each, rfl, rfl⟩
    exact .listed typeName each

/-- What is made of a result comes out where the result does. -/
theorem bind_pure_eq_ok_iff {α β : Type} {result : Except ConversionError α} {make : α → β}
    {outcome : β} : (result >>= fun value => pure (make value)) = .ok outcome ↔
      ∃ value, result = .ok value ∧ make value = outcome := by
  cases result with
  | error error => exact ⟨nofun, fun ⟨_, absent, _⟩ => nomatch absent⟩
  | ok value =>
    constructor
    · intro same
      exact ⟨value, rfl, Except.ok.inj same⟩
    · rintro ⟨_, same, rfl⟩
      rw [← Except.ok.inj same]
      rfl

/-- What follows comes out where what comes first does and it does itself. -/
theorem bind_eq_ok_iff {α β : Type} {result : Except ConversionError α}
    {next : α → Except ConversionError β} {outcome : β} :
    (result >>= next) = .ok outcome ↔ ∃ value, result = .ok value ∧ next value = .ok outcome := by
  cases result with
  | error error => exact ⟨nofun, fun ⟨_, absent, _⟩ => nomatch absent⟩
  | ok value =>
    constructor
    · intro same
      exact ⟨value, rfl, same⟩
    · rintro ⟨_, same, following⟩
      rwa [← Except.ok.inj same] at following

/-- A traversal is not refused where it comes to an end. -/
theorem finish_eq_ok_iff {α : Type} {members : List α} {raised? : Option Raised} {nothing : Unit} :
    (Traversal.mk members raised?).finish = .ok nothing ↔ raised? = none := by
  cases raised? with
  | none => exact iff_of_true rfl rfl
  | some error => exact iff_of_false nofun nofun

mutual

/-- Plain data is converted to the values that mirror it. -/
theorem toValue_eq_ok_iff : ∀ (datum : Datum) (outcome : Value),
    datum.toValue = .ok outcome ↔ Mirrors datum outcome
  | .text content, outcome => by
    rw [toValue]
    constructor
    · intro same
      exact Except.ok.inj same ▸ .text content
    · rintro (_ | _)
      rfl
  | .scalar atom, outcome => ⟨nofun, nofun⟩
  | .list items, outcome => by
    rw [toValue, bind_pure_eq_ok_iff, mirrors_list_iff]
    simp only [toValues_eq_ok_iff items]
  | .tuple items, outcome => by
    rw [toValue, bind_pure_eq_ok_iff, mirrors_tuple_iff]
    simp only [toValues_eq_ok_iff items]
  | .mapping entries, outcome => by
    rw [toValue, bind_pure_eq_ok_iff, mirrors_mapping_iff]
    simp only [toFields_eq_ok_iff entries]
  | .value known, outcome => by
    rw [toValue]
    constructor
    · intro same
      exact Except.ok.inj same ▸ .value known
    · rintro (_ | _)
      rfl
  | .object typeName (some ⟨entries, raised?⟩) elements, outcome => by
    rw [toValue, bind_eq_ok_iff, mirrors_offered_iff]
    simp only [bind_pure_eq_ok_iff, finish_eq_ok_iff, exists_const, toFields_eq_ok_iff entries]
  | .object typeName none (some ⟨items, raised?⟩), outcome => by
    rw [toValue, bind_eq_ok_iff, mirrors_listed_iff]
    simp only [bind_pure_eq_ok_iff, finish_eq_ok_iff, exists_const, toValues_eq_ok_iff items]
  | .object typeName none none, outcome => ⟨nofun, nofun⟩

/-- Plain data in a row is converted one by one. -/
theorem toValues_eq_ok_iff : ∀ (items : List Datum) (values : List Value),
    toValues items = .ok values ↔ List.Forall₂ Mirrors items values
  | [], values => by
    rw [toValues, List.forall₂_nil_left_iff]
    exact ⟨fun same => (Except.ok.inj same).symm, fun none => none ▸ rfl⟩
  | datum :: more, values => by
    rw [toValues, bind_eq_ok_iff, List.forall₂_cons_left_iff]
    simp only [bind_pure_eq_ok_iff, toValue_eq_ok_iff datum, toValues_eq_ok_iff more]
    constructor
    · rintro ⟨value, own, others, each, rfl⟩
      exact ⟨value, others, own, each, rfl⟩
    · rintro ⟨value, others, own, each, rfl⟩
      exact ⟨value, own, others, each, rfl⟩

/-- Entries are converted one by one. -/
theorem toFields_eq_ok_iff : ∀ (entries : List (Key × Datum)) (pairs : List (String × Value)),
    toFields entries = .ok pairs ↔ List.Forall₂ MirrorsEntry entries pairs
  | [], pairs => by
    rw [toFields, List.forall₂_nil_left_iff]
    exact ⟨fun same => (Except.ok.inj same).symm, fun none => none ▸ rfl⟩
  | (.scalar _, _) :: _, pairs | (.tuple _, _) :: _, pairs | (.object _, _) :: _, pairs => by
    constructor
    · exact nofun
    · rintro (_ | ⟨first, _⟩)
      nomatch first
  | (.text name, datum) :: more, pairs => by
    rw [toFields, bind_eq_ok_iff]
    simp only [bind_pure_eq_ok_iff, toValue_eq_ok_iff datum, toFields_eq_ok_iff more]
    constructor
    · rintro ⟨value, own, others, each, rfl⟩
      exact .cons (.named name own) each
    · rintro (_ | ⟨⟨_, own⟩, each⟩)
      exact ⟨_, own, _, each, rfl⟩

end

/-- What mirrors entries has the names that are their keys, in their order. -/
theorem map_key_eq_of_mirrors {entries : List (Key × Datum)} {pairs : List (String × Value)}
    (each : List.Forall₂ MirrorsEntry entries pairs) :
    entries.map (·.1) = (Entries.names pairs).map Key.text := by
  induction each with
  | nil => rfl
  | cons first _ ih =>
    obtain ⟨name, -⟩ := first
    exact congrArg (Key.text name :: ·) ih

/-- The data is gone through as these entries: it is a mapping of them, or any other object that
offers them. -/
def Offers (entries : List (Key × Datum)) (datum : Datum) : Prop :=
  datum = .mapping entries ∨
    ∃ typeName elements, datum = .object typeName (some ⟨entries, none⟩) elements

/-- The map that mirrors entries without repeated keys mirrors them one by one, in order. -/
theorem Mirrors.entries {datum : Datum} {entries : List (Key × Datum)}
    {fields : List (String × Value)} (mirrors : Mirrors datum (.map fields))
    (offers : datum.Offers entries) (distinct : (entries.map (·.1)).Nodup) :
    List.Forall₂ MirrorsEntry entries fields := by
  obtain ⟨pairs, each, same⟩ : ∃ pairs, List.Forall₂ MirrorsEntry entries pairs ∧
      Value.map (Entries.ofPairs pairs) = .map fields := by
    rcases offers with rfl | ⟨typeName, elements, rfl⟩
    · exact mirrors_mapping_iff.mp mirrors
    · obtain ⟨pairs, each, -, same⟩ := mirrors_offered_iff.mp mirrors
      exact ⟨pairs, each, same⟩
  -- No two names are the same, so filling the map keeps all of them in their places.
  rw [map_key_eq_of_mirrors each] at distinct
  have filled : Entries.ofPairs pairs = pairs := Entries.ofPairs_of_distinct distinct.of_map
  obtain rfl : pairs = fields := by rw [← filled, Value.map.inj same]
  exact each

mutual

/-- What mirrors plain data has every name once in every map, as long as the values converted before
have. -/
theorem Mirrors.distinct : ∀ {datum : Datum} {outcome : Value}, Mirrors datum outcome →
    (∀ known, .datum (.value known) ∈ datum.constituents → known.Distinct) → outcome.Distinct
  | .text content, _, mirrors, _ => by
    obtain _ | _ := mirrors
    exact Value.distinct_text content
  | .list items, _, mirrors, earlier => by
    obtain ⟨values, each, rfl⟩ := mirrors_list_iff.mp mirrors
    exact Value.distinct_list.mpr
      (distinct_items each fun known member => earlier known (List.mem_cons_of_mem _ member))
  | .tuple items, _, mirrors, earlier => by
    obtain ⟨values, each, rfl⟩ := mirrors_tuple_iff.mp mirrors
    exact Value.distinct_list.mpr
      (distinct_items each fun known member => earlier known (List.mem_cons_of_mem _ member))
  | .mapping entries, _, mirrors, earlier => by
    obtain ⟨pairs, each, rfl⟩ := mirrors_mapping_iff.mp mirrors
    have values := distinct_entries each fun known member =>
      earlier known (List.mem_cons_of_mem _ member)
    exact Value.distinct_map.mpr
      ⟨Entries.distinct_ofPairs pairs, fun pair member => values pair (Entries.mem_ofPairs member)⟩
  | .value known, _, mirrors, earlier => by
    obtain _ | _ := mirrors
    exact earlier known (List.mem_singleton_self _)
  | .object _ (some ⟨entries, raised?⟩) _, _, mirrors, earlier => by
    obtain ⟨pairs, each, -, rfl⟩ := mirrors_offered_iff.mp mirrors
    have values := distinct_entries each fun known member =>
      earlier known (List.mem_cons_of_mem _ (List.mem_append_left _ member))
    exact Value.distinct_map.mpr
      ⟨Entries.distinct_ofPairs pairs, fun pair member => values pair (Entries.mem_ofPairs member)⟩
  | .object _ none (some ⟨items, raised?⟩), _, mirrors, earlier => by
    obtain ⟨values, each, -, rfl⟩ := mirrors_listed_iff.mp mirrors
    exact Value.distinct_list.mpr (distinct_items each fun known member =>
      earlier known (List.mem_cons_of_mem _ (List.mem_append_left _ member)))
  | .object _ none none, _, mirrors, _ => nomatch mirrors

/-- What mirrors plain data in a row has every name once in every map. -/
theorem distinct_items : ∀ {items : List Datum} {values : List Value},
    List.Forall₂ Mirrors items values →
    (∀ known, .datum (.value known) ∈ itemConstituents items → known.Distinct) →
      ∀ value ∈ values, value.Distinct
  | [], _, .nil, _ => List.forall_mem_nil _
  | datum :: more, _, .cons first others, earlier => by
    have own := first.distinct fun known member => earlier known (List.mem_append_left _ member)
    exact List.forall_mem_cons.mpr ⟨own, distinct_items others fun known member =>
      earlier known (List.mem_append_right _ member)⟩

/-- What mirrors entries has every name once in every map. -/
theorem distinct_entries : ∀ {entries : List (Key × Datum)} {pairs : List (String × Value)},
    List.Forall₂ MirrorsEntry entries pairs →
    (∀ known, .datum (.value known) ∈ entryConstituents entries → known.Distinct) →
      ∀ pair ∈ pairs, pair.2.Distinct
  | [], _, .nil, _ => List.forall_mem_nil _
  | (key, datum) :: more, _, .cons first others, earlier => by
    obtain ⟨name, mirrors⟩ := first
    have inside (known : Value)
        (member : .datum (.value known) ∈ datum.constituents ++ entryConstituents more) :
        known.Distinct := earlier known (List.mem_cons_of_mem _ member)
    have own := mirrors.distinct fun known member => inside known (List.mem_append_left _ member)
    exact List.forall_mem_cons.mpr ⟨own, distinct_entries others fun known member =>
      inside known (List.mem_append_right _ member)⟩

end

end Datum

namespace Value

mutual

/-- The plain data that a value shows: lists for lists and mappings for maps. -/
def plain : Value → Datum
  | .text content => .text content
  | .list items => .list (plainItems items)
  | .map fields => .mapping (plainFields fields)

/-- The plain data that values in a row show. -/
def plainItems : List Value → List Datum
  | [] => []
  | item :: more => item.plain :: plainItems more

/-- The entries that named values show. -/
def plainFields : List (String × Value) → List (Key × Datum)
  | [] => []
  | (name, value) :: more => (.text name, value.plain) :: plainFields more

end

end Value

end TextTemplate.Data
