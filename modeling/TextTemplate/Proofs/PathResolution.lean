import Mathlib.Data.List.Forall2
import TextTemplate.Proofs.ContextExtension
import TextTemplate.Proofs.DistinctNames

/-!
# Where paths lead

Following a path in parts leads where the whole path leads. Binding a name on top changes where the
paths lead that start with it, and no others. The records that a loop over a map binds show the
names of the map, and lead into it. These laws hold wherever maps, lists and texts are mixed along a
path. Only the one on records asks for a map that has every name once.
-/

namespace TextTemplate.Data

open Markup Text

namespace Value

/-- The key of the record of an entry is its name. -/
theorem resolve?_key_entryRecord (entry : String × Value) :
    (entryRecord entry).resolve? ["key"] = some (.text entry.1) :=
  rfl

/-- The value of the record of an entry leads where the value of the entry leads. -/
theorem resolve?_value_entryRecord (entry : String × Value) (steps : List String) :
    (entryRecord entry).resolve? ("value" :: steps) = entry.2.resolve? steps :=
  rfl

/-- In a map a name is looked up, and the other names lead on from there. -/
theorem resolve?_map_cons (fields : Entries Value) (name : String) (steps : List String) :
    (map fields).resolve? (name :: steps) = (fields.find? name).bind (resolve? steps) :=
  rfl

/-- A record that a loop over the map may bind for the name: its key is the name, and its value
leads where the name leads in the map. -/
structure IsRecordOf (fields : Entries Value) (name : String) (record : Value) : Prop where
  /-- The key is the name. -/
  key : record.resolve? ["key"] = some (.text name)
  /-- The value leads where the name does. -/
  value : ∀ steps, record.resolve? ("value" :: steps) = (map fields).resolve? (name :: steps)

/-- A loop over a map that has every name once binds a record for each name in order. -/
theorem forall₂_isRecordOf {fields : Entries Value} (distinct : fields.Distinct) :
    List.Forall₂ (IsRecordOf fields) fields.names (fields.map entryRecord) := by
  rw [Entries.names, List.forall₂_map_left_iff, List.forall₂_map_right_iff, List.forall₂_same]
  intro entry member
  refine ⟨resolve?_key_entryRecord entry, fun steps => ?_⟩
  rw [resolve?_value_entryRecord, resolve?_map_cons, distinct.find?_eq member, Option.bind_some]

end Value

namespace Context

variable {context wider : Context}

/-- The path of a name and further ones, wherever it is read. -/
theorem parts_cons (root : String) (steps : List String) :
    Path.parts ⟨root, steps, .empty .start⟩ = root :: steps :=
  rfl

/-- Names in a row lead into the value that was bound to the first of them, or where they did
before. -/
theorem resolve?_bind_cons (name : String) (value : Value) (context : Context) (root : String)
    (steps : List String) :
    (context.bind name value).resolve? (root :: steps) =
      if root = name then value.resolve? steps else context.resolve? (root :: steps) := by
  rw [← parts_cons, resolve?_bind]

/-- Where names in a row lead to a value, they lead to it in every wider context. -/
theorem Extends.resolve?_of_ne_nil (grown : wider.Extends context) {parts : List String}
    (nonempty : parts ≠ []) {value : Value} (found : context.resolve? parts = some value) :
    wider.resolve? parts = some value := by
  obtain ⟨root, steps, rfl⟩ := List.exists_cons_of_ne_nil nonempty
  rw [← parts_cons] at found ⊢
  exact grown.resolve? found

end Context

/-- The algebra of paths. A path in two parts leads nowhere when its first part does, and else where
its second part leads from there. A name bound on top leads into its value, and all other names
lead where they led before. A loop over a map that has every name once binds one record for each
name, in order, whose key is the name and whose value leads where the name leads. A context in which
all names bound are bound to the same leads all paths alike that led anywhere, but for the empty
path, which leads to the context itself. -/
theorem paths_compose :
    (∀ (value : Value) (front back : List String),
      (value.resolve? front = none → value.resolve? (front ++ back) = none) ∧
      ∀ inner, value.resolve? front = some inner →
        value.resolve? (front ++ back) = inner.resolve? back) ∧
    (∀ (context : Context) (name : String) (value : Value) (steps : List String),
      (context.bind name value).resolve? (name :: steps) = value.resolve? steps ∧
      ∀ other, other ≠ name →
        (context.bind name value).resolve? (other :: steps) = context.resolve? (other :: steps)) ∧
    (∀ fields : Entries Value, fields.Distinct →
      ∃ records, (Value.map fields).loopItems? = some records ∧
        List.Forall₂ (Value.IsRecordOf fields) fields.names records) ∧
    ∀ context wider : Context, wider.Extends context → ∀ parts, parts ≠ [] →
      ∀ value, context.resolve? parts = some value → wider.resolve? parts = some value := by
  refine ⟨fun value front back => ?_, fun context name value steps => ?_,
    fun fields distinct => ?_, fun context wider grown parts nonempty value found => ?_⟩
  · rw [Value.resolve?_append]
    refine ⟨fun absent => ?_, fun inner found => ?_⟩
    · rw [absent, Option.bind_none]
    · rw [found, Option.bind_some]
  · refine ⟨?_, fun other different => ?_⟩
    · rw [Context.resolve?_bind_cons, if_pos rfl]
    · rw [Context.resolve?_bind_cons, if_neg different]
  · exact ⟨_, rfl, Value.forall₂_isRecordOf distinct⟩
  · exact grown.resolve?_of_ne_nil nonempty found

/-- A name is bound that hides another value. The path goes through a map, a list and a map again,
and the record of the second entry leads into its list. -/
theorem paths_compose_through_lists :
    let members : Entries Value :=
      [("ann", .text "1"), ("bob", .list [.text "2", .map [("key", .text "3")]])]
    let context : Context := ⟨[("x", .text "?"), ("team", .map members)]⟩
    let wider := context.bind "y" (.text "!")
    (context.toValue.resolve? ["team", "bob"] =
        some (.list [.text "2", .map [("key", .text "3")]]) ∧
      context.toValue.resolve? (["team", "bob"] ++ ["1", "key"]) = some (.text "3")) ∧
    ("team" ≠ "x" ∧
      (context.bind "x" (.map members)).resolve? ["team", "ann"] =
        context.resolve? ["team", "ann"]) ∧
    (members.Distinct ∧ ∃ records, (Value.map members).loopItems? = some records ∧
      List.Forall₂ (Value.IsRecordOf members) members.names records) ∧
    (wider.Extends context ∧ context.resolve? ["team", "bob", "0"] = some (.text "2") ∧
      wider.resolve? ["team", "bob", "0"] = some (.text "2")) := by
  intro members context wider
  have first : context.toValue.resolve? ["team", "bob"] =
      some (.list [.text "2", .map [("key", .text "3")]]) := by decide
  have other : "team" ≠ "x" := by decide
  have distinct : members.Distinct := by decide
  have grown : wider.Extends context := Context.extends_bind rfl _
  have found : context.resolve? ["team", "bob", "0"] = some (.text "2") := by decide
  obtain ⟨parts, bound, loops, kept⟩ := paths_compose
  have whole : context.toValue.resolve? (["team", "bob"] ++ ["1", "key"]) = some (.text "3") :=
    ((parts _ _ _).2 _ first).trans (by decide)
  exact ⟨⟨first, whole⟩, ⟨other, (bound context "x" (.map members) ["ann"]).2 "team" other⟩,
    ⟨distinct, loops members distinct⟩,
    grown, found, kept context wider grown _ (by decide) _ found⟩

end TextTemplate.Data
