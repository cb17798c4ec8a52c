import TextTemplate.Data.Value
import TextTemplate.Decimal.Written
import TextTemplate.Text.Quoted

/-!
# Plain data and its conversion to values

Plain data comes from outside: texts, lists, tuples and mappings, but also numbers and other
things that a template cannot use, and mappings whose keys are no texts. Conversion refuses these.
It goes through the data in order and reports the first fault; the key of an entry is looked at
before its value. Values that were converted before may occur anywhere and are taken as they are.

Any other object is taken for what it offers. If it offers entries, it is gone through like a
mapping, whatever else it is; only without them it is gone through like a list, if it is one. Going
through an object may raise an error of its own, and so may writing out a key. Such an error is not
reported as a refusal but passed on.
-/

namespace TextTemplate.Data

/-- An error that is not raised by the conversion itself: its class and what it says. -/
structure Raised where
  /-- The name of its class. -/
  className : String
  /-- What it says. -/
  message : String
  deriving DecidableEq

/-- What an object gives when it is gone through: its members in order, perhaps up to an error. -/
structure Traversal (α : Type) where
  /-- The members given. -/
  members : List α
  /-- The error behind them, absent where the members come to an end. -/
  raised? : Option Raised

/-- Plain data without parts that has no counterpart among the values. -/
inductive Scalar where
  /-- The absence of a value. -/
  | null
  /-- A truth value. -/
  | bool (truth : Bool)
  /-- An integer. -/
  | int (number : Int)
  /-- A number with a fraction. -/
  | float (number : Float)
  /-- A row of octets. -/
  | octets (row : List UInt8)

/-- The key of a mapping entry. -/
inductive Key where
  /-- A text. -/
  | text (content : String)
  /-- Something that is no text. -/
  | scalar (atom : Scalar)
  /-- A row of keys. -/
  | tuple (items : List Key)
  /-- Any other key that is no text, by what it is written as or by the error that this raises. -/
  | object (written : Except Raised String)

/-- Plain data. -/
inductive Datum where
  /-- A text. -/
  | text (content : String)
  /-- Something that no template can use. -/
  | scalar (atom : Scalar)
  /-- A list. -/
  | list (items : List Datum)
  /-- A list of fixed length. -/
  | tuple (items : List Datum)
  /-- A mapping, its entries in order. -/
  | mapping (entries : List (Key × Datum))
  /-- A value converted before. -/
  | value (known : Value)
  /-- Any other object of a type of its own. The entries are given by what has the name `items` in
  it, if anything has; the elements are those of an object that is a list or a tuple as well. -/
  | object (typeName : String) (entries : Option (Traversal (Key × Datum)))
      (elements : Option (Traversal Datum))

/-- The kinds of plain data, told apart by their type names. -/
inductive DatumKind where
  | null | bool | int | float | octets | text | list | tuple | mapping | value (kind : ValueKind)
  | named (typeName : String)
  deriving DecidableEq

/-- The type name under which a kind of plain data is reported. -/
def DatumKind.typeName : DatumKind → String
  | .null => "NoneType"
  | .bool => "bool"
  | .int => "int"
  | .float => "float"
  | .octets => "bytes"
  | .text => "str"
  | .list => "list"
  | .tuple => "tuple"
  | .mapping => "dict"
  | .value kind => "simplerjinja.values." ++ kind.name
  | .named typeName => typeName

/-- The kind of a scalar. -/
def Scalar.kind : Scalar → DatumKind
  | .null => .null
  | .bool _ => .bool
  | .int _ => .int
  | .float _ => .float
  | .octets _ => .octets

/-- The kind of plain data. -/
def Datum.kind : Datum → DatumKind
  | .text _ => .text
  | .scalar atom => atom.kind
  | .list _ => .list
  | .tuple _ => .tuple
  | .mapping _ => .mapping
  | .value known => .value known.kind
  | .object typeName _ _ => .named typeName

/-- How many digits of an integer may be written out. -/
def digitLimit : Nat := 4300

/-- The error that is raised for an integer with more digits. -/
def tooManyDigits : Raised where
  className := "ValueError"
  message := "Exceeds the limit (" ++ toString digitLimit ++ " digits) for integer string " ++
    "conversion; use sys.set_int_max_str_digits() to increase the limit"

/-- A scalar written out. -/
def Scalar.literal : Scalar → Except Raised String
  | .null => return "None"
  | .bool true => return "True"
  | .bool false => return "False"
  | .int number =>
    if Nat.pow 10 digitLimit ≤ number.natAbs then throw tooManyDigits else return toString number
  | .float number => return Decimal.writeFloat number
  | .octets row => return Text.quotedOctets row

namespace Key

mutual

/-- A key written out, or the error that this raises. A comma follows the only key of a row. -/
def literal : Key → Except Raised String
  | .text content => return Text.quoted content
  | .scalar atom => atom.literal
  | .tuple items => do
    match ← literals items with
    | [item] => return "(" ++ item ++ ",)"
    | items => return "(" ++ ", ".intercalate items ++ ")"
  | .object written => written

/-- Keys written out one by one. -/
def literals : List Key → Except Raised (List String)
  | [] => return []
  | key :: more => do return (← key.literal) :: (← literals more)

end

/-- Whether both keys are the same text. -/
def sameText : Key → Key → Bool
  | .text content, .text content' => content == content'
  | _, _ => false

end Key

/-- Gives a key of a mapping its data. A text that is a key already keeps its place. -/
def assign (key : Key) (datum : Datum) : List (Key × Datum) → List (Key × Datum)
  | [] => [(key, datum)]
  | (known, old) :: more =>
    if known.sameText key then (known, datum) :: more else (known, old) :: assign key datum more

/-- The mapping that arises when keys are given their data in turn. -/
def Datum.ofPairs (pairs : List (Key × Datum)) : Datum :=
  .mapping (pairs.foldl (fun entries pair => assign pair.1 pair.2 entries) [])

/-- Why plain data was refused. -/
inductive ConversionError where
  /-- Something occurs that no template can use. -/
  | unsupported (kind : DatumKind)
  /-- A mapping has a key that is no text; it is written out. -/
  | keyNotText (key : Key) (written : String)
  /-- A context was to be made from something that is no mapping. -/
  | notMapping (kind : DatumKind)
  /-- Something else raised an error meanwhile. -/
  | raised (error : Raised)

/-- The text that reports why plain data was refused. -/
def ConversionError.message : ConversionError → String
  | .unsupported kind => "Can't use <class '" ++ kind.typeName ++ "'> in a template context"
  | .keyNotText _ written => "Map keys must be strings, got " ++ written
  | .notMapping kind => "A context must be a mapping, got <class '" ++ kind.typeName ++ "'>"
  | .raised error => error.message

/-- The name of the class of the error that reports why plain data was refused. -/
def ConversionError.className : ConversionError → String
  | .unsupported _ | .keyNotText _ _ | .notMapping _ => "UnsupportedValueError"
  | .raised error => error.className

/-- The refusal of a key that is no text. It is written out for that, which may raise an error. -/
def Key.refusal (key : Key) : ConversionError :=
  match key.literal with
  | .ok written => .keyNotText key written
  | .error error => .raised error

/-- Behind its members, a traversal comes to an end or raises its error. -/
def Traversal.finish {α : Type} (traversal : Traversal α) : Except ConversionError Unit :=
  match traversal.raised? with
  | none => return
  | some error => throw (.raised error)

namespace Datum

mutual

/-- The value of plain data, or its first fault. Whether an object offers entries is asked before it
is asked whether it is a list. -/
def toValue : Datum → Except ConversionError Value
  | .text content => .ok (.text content)
  | .scalar atom => .error (.unsupported atom.kind)
  | .list items => return .list (← toValues items)
  | .tuple items => return .list (← toValues items)
  | .mapping entries => return .map (Entries.ofPairs (← toFields entries))
  | .value known => .ok known
  | .object _ (some ⟨entries, raised?⟩) _ => do
    let fields ← toFields entries
    (Traversal.mk entries raised?).finish
    return .map (Entries.ofPairs fields)
  | .object _ none (some ⟨items, raised?⟩) => do
    let values ← toValues items
    (Traversal.mk items raised?).finish
    return .list values
  | .object typeName none none => .error (.unsupported (.named typeName))

/-- The values of a row of plain data, or its first fault. -/
def toValues : List Datum → Except ConversionError (List Value)
  | [] => return []
  | datum :: more => do
    let value ← datum.toValue
    return value :: (← toValues more)

/-- The named values of the entries of a mapping, or their first fault. -/
def toFields : List (Key × Datum) → Except ConversionError (List (String × Value))
  | [] => return []
  | (key, datum) :: more =>
    match key with
    | .text name => do
      let value ← datum.toValue
      return (name, value) :: (← toFields more)
    | key => .error key.refusal

end

/-- The context made from plain data. Nothing at all makes the empty context; anything else is
converted in full before it is asked whether it is a mapping. -/
def toContext (datum : Datum) : Except ConversionError Context :=
  match datum with
  | .scalar .null => .ok .empty
  | datum => do
    match ← datum.toValue with
    | .map fields => return ⟨fields⟩
    | _ => .error (.notMapping datum.kind)

end Datum

end TextTemplate.Data
