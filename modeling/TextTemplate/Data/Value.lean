import TextTemplate.Data.Entries
import TextTemplate.Unicode.DecimalDigit

/-!
# The data a template reads

A value is a text, a list of values or an ordered map from names to values. A path leads through
maps by name and through lists by numerals of any script; texts have no parts. A context is a map;
reading a loop binds names on top of it and never changes it.
-/

namespace TextTemplate.Data

/-- A piece of data. -/
inductive Value where
  /-- A text. -/
  | text (content : String)
  /-- Values in order. -/
  | list (items : List Value)
  /-- Values by name, in order. -/
  | map (fields : List (String × Value))

/-- The kinds of values. -/
inductive ValueKind where
  | text | list | map
  deriving DecidableEq

/-- The name by which a kind of value is shown. -/
def ValueKind.name : ValueKind → String
  | .text => "StringValue"
  | .list => "ListValue"
  | .map => "MapValue"

namespace Value

/-- The kind of a value. -/
def kind : Value → ValueKind
  | .text _ => .text
  | .list _ => .list
  | .map _ => .map

mutual

/-- Whether two values are the same; the order of a map matters. -/
def same : Value → Value → Bool
  | .text content, .text content' => content == content'
  | .list items, .list items' => sameItems items items'
  | .map fields, .map fields' => sameFields fields fields'
  | _, _ => false

/-- Whether two rows of values are the same. -/
def sameItems : List Value → List Value → Bool
  | [], [] => true
  | item :: more, item' :: more' => same item item' && sameItems more more'
  | _, _ => false

/-- Whether two rows of named values are the same. -/
def sameFields : List (String × Value) → List (String × Value) → Bool
  | [], [] => true
  | (name, value) :: more, (name', value') :: more' =>
    name == name' && same value value' && sameFields more more'
  | _, _ => false

end

mutual

/-- The comparison answers whether two values are equal. -/
theorem same_iff : ∀ value other : Value, same value other = true ↔ value = other
  | .text _, .text _ => by simp [same]
  | .list items, .list items' => by simp [same, sameItems_iff items items']
  | .map fields, .map fields' => by simp [same, sameFields_iff fields fields']
  | .text _, .list _ | .text _, .map _ | .list _, .text _ | .list _, .map _ | .map _, .text _
  | .map _, .list _ => by simp [same]

/-- The comparison answers whether two rows of values are equal. -/
theorem sameItems_iff : ∀ items others : List Value, sameItems items others = true ↔ items = others
  | [], [] | [], _ :: _ | _ :: _, [] => by simp [sameItems]
  | item :: more, item' :: more' => by
    simp [sameItems, same_iff item item', sameItems_iff more more']

/-- The comparison answers whether two rows of named values are equal. -/
theorem sameFields_iff : ∀ fields others : List (String × Value),
    sameFields fields others = true ↔ fields = others
  | [], [] | [], _ :: _ | _ :: _, [] => by simp [sameFields]
  | (name, value) :: more, (name', value') :: more' => by
    simp [sameFields, same_iff value value', sameFields_iff more more']

end

/-- Values are compared in full. -/
instance : DecidableEq Value := fun value other =>
  decidable_of_iff (same value other = true) (same_iff value other)

/-- The part of a value that one name of a path leads to. -/
def part? (name : String) : Value → Option Value
  | .text _ => none
  | .list items => (Unicode.numeralValue? name).bind fun index => items[index]?
  | .map fields => Entries.find? name fields

/-- The value that the names of a path lead to, absent as soon as one of them misses. -/
def resolve? : List String → Value → Option Value
  | [], value => some value
  | name :: more, value => (value.part? name).bind (resolve? more)

/-- The record that a loop over a map binds for one entry. -/
def entryRecord (entry : String × Value) : Value :=
  .map [("key", .text entry.1), ("value", entry.2)]

/-- What a loop over a value binds in turn, absent for a text. -/
def loopItems? : Value → Option (List Value)
  | .text _ => none
  | .list items => some items
  | .map fields => some (fields.map entryRecord)

/-- Whether a condition on the value holds: it is not empty. -/
def truthy : Value → Bool
  | .text content => content != ""
  | .list items => !items.isEmpty
  | .map fields => !fields.isEmpty

/-- Following one path after another is following them in one. -/
theorem resolve?_append (front back : List String) (value : Value) :
    resolve? (front ++ back) value = (resolve? front value).bind (resolve? back) := by
  induction front generalizing value with
  | nil => rfl
  | cons name more ih =>
    simp only [List.cons_append, resolve?]
    cases value.part? name <;> simp [ih]

end Value

/-- The names a template is read under. -/
structure Context where
  /-- The names bound, with their values. -/
  fields : Entries Value
  deriving DecidableEq

namespace Context

/-- Nothing is bound. -/
def empty : Context := ⟨[]⟩

/-- The context as a map. -/
def toValue (context : Context) : Value := .map context.fields

/-- The context with a name bound on top. -/
def bind (name : String) (value : Value) (context : Context) : Context :=
  ⟨context.fields.insert name value⟩

/-- The value that the names of a path lead to. -/
def resolve? (parts : List String) (context : Context) : Option Value :=
  context.toValue.resolve? parts

end Context

end TextTemplate.Data
