import StructuredQuery.Json.Text

/-!
# Untyped values

`Value` is a JSON tree in canonical form, so that two values are equal exactly when
they hold the same data.  `view` opens a value one level.  The functions on arguments
say how one value and several are given alike: an array gives its elements, and any
other value gives itself.
-/

namespace StructuredQuery

/-- A JSON tree whose objects have their members sorted by key. -/
structure Value where
  json : Json
  isCanonical : json.IsCanonical
  deriving DecidableEq

namespace Value

/-- The value that a tree holds. -/
def ofJson (json : Json) : Value :=
  ⟨json.canonical, Json.isCanonical_canonical json⟩

/-! ### Making values -/

/-- The null value. -/
def null : Value :=
  ⟨.null, trivial⟩

/-- A truth value. -/
def bool (value : Bool) : Value :=
  ⟨.bool value, trivial⟩

/-- A number. -/
def number (value : Number) : Value :=
  ⟨.number value, trivial⟩

/-- A string. -/
def string (value : String) : Value :=
  ⟨.string value, trivial⟩

/-- A double, or null if it is infinite or no number. -/
def double (x : Double) : Value :=
  if h : x.IsFinite then number (.float x h) else null

/-- A list of values. -/
def array (items : List Value) : Value :=
  ⟨.array (items.map json), by
    simp only [Json.IsCanonical, Json.canonicalItems_iff, List.mem_map]
    rintro _ ⟨item, -, rfl⟩
    exact item.isCanonical⟩

/-- An object with the given fields, the last of those with the same key. -/
def object (fields : List (String × Value)) : Value :=
  ⟨.object (Json.sortMembers (fields.map fun field => (field.1, field.2.json))), by
    apply Json.sortMembers_isCanonical
    simp only [Json.canonicalMembers_iff, List.mem_map]
    rintro _ ⟨field, -, rfl⟩
    exact field.2.isCanonical⟩

/-! ### Opening values -/

/-- A value opened one level. -/
inductive View where
  | null
  | bool (value : Bool)
  | number (value : Number)
  | string (value : String)
  | array (items : List Value)
  | object (fields : List (String × Value))

/-- The items of a canonical array. -/
def ofItems (items : List Json) (h : Json.CanonicalItems items) : List Value :=
  items.attach.map fun item => ⟨item.1, Json.canonicalItems_iff.1 h item.1 item.2⟩

/-- The fields of a canonical object. -/
def ofMembers (members : List (String × Json)) (h : Json.CanonicalMembers members) :
    List (String × Value) :=
  members.attach.map fun member =>
    (member.1.1, ⟨member.1.2, Json.canonicalMembers_iff.1 h member.1 member.2⟩)

/-- The value opened one level. -/
def view : Value → View
  | ⟨.null, _⟩ => .null
  | ⟨.bool value, _⟩ => .bool value
  | ⟨.number value, _⟩ => .number value
  | ⟨.string value, _⟩ => .string value
  | ⟨.array items, h⟩ => .array (ofItems items h)
  | ⟨.object members, h⟩ => .object (ofMembers members h.2)

/-- The fields of an object. -/
def fields? (value : Value) : Option (List (String × Value)) :=
  match value.view with
  | .object fields => some fields
  | _ => none

/-- The field of an object under a key. -/
def get? (value : Value) (key : String) : Option Value :=
  value.fields?.bind (·.lookup key)

/-- The compact text of a value. -/
def text (value : Value) : String :=
  value.json.compact

/-! ### Arguments -/

/-- The elements of an array, or the value itself. -/
def elements (value : Value) : List Value :=
  match value.view with
  | .array items => items
  | _ => [value]

/-- The elements of an argument that may be left out: null gives none. -/
def given (value : Value) : List Value :=
  match value.view with
  | .null => []
  | _ => value.elements

/-- The values of a list of arguments: a single one gives its elements. -/
def ofArguments : List Value → List Value
  | [value] => value.elements
  | values => values

end Value

/-! ### Numerical equality -/

namespace Json

mutual

/-- Equality of trees in which the two zeros of the doubles are equal. -/
def same : Json → Json → Bool
  | .null, .null => true
  | .bool a, .bool b => a = b
  | .number a, .number b => a.same b
  | .string a, .string b => a = b
  | .array a, .array b => sameItems a b
  | .object a, .object b => sameMembers a b
  | _, _ => false
termination_by structural json => json

/-- Equality of lists of trees, item by item. -/
def sameItems : List Json → List Json → Bool
  | [], [] => true
  | a :: as, b :: bs => a.same b && sameItems as bs
  | _, _ => false
termination_by structural items => items

/-- Equality of lists of members, member by member. -/
def sameMembers : List (String × Json) → List (String × Json) → Bool
  | [], [] => true
  | (k, a) :: as, (l, b) :: bs => k = l && a.same b && sameMembers as bs
  | _, _ => false
termination_by structural members => members

end

end Json

/-- Equality of values in which the two zeros of the doubles are equal. -/
def Value.same (a b : Value) : Bool :=
  a.json.same b.json

end StructuredQuery
