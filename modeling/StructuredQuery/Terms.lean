import StructuredQuery.Reading

/-!
# Terms of a value constraint

The terms of a value constraint stand under a key that names their type.  Untyped terms
go under the key of the first of them; a list that starts with an array or an object,
or with nothing, has no key of its own and goes under `text`.
-/

namespace StructuredQuery

/-- The types of terms. -/
inductive TermType where
  | text
  | number
  | boolean
  | null
  deriving DecidableEq, Repr

namespace TermType

/-- All types. -/
def all : List TermType :=
  [text, number, boolean, null]

/-- The key of a type. -/
def key : TermType → String
  | text => "text"
  | number => "number"
  | boolean => "boolean"
  | null => "null"

/-- The type with a key. -/
def ofKey? (key : String) : Option TermType :=
  all.find? (·.key = key)

end TermType

/-- Terms under the key of a type. -/
structure Terms where
  type : TermType
  values : List Value
  deriving DecidableEq

/-- Why a list of terms has no type of its own. -/
inductive Untyped where
  | empty
  /-- The first term is an array or an object. -/
  | container (first : Value)
  deriving DecidableEq

namespace Terms

/-- The type of a list of terms, or why it has none. -/
def typeOf : List Value → Except Untyped TermType
  | [] => .error .empty
  | first :: _ =>
    match first.view with
    | .null => .ok .null
    | .bool _ => .ok .boolean
    | .number _ => .ok .number
    | .string _ => .ok .text
    | .array _ | .object _ => .error (.container first)

/-- Terms that must have a type. -/
def ofValuesStrict (values : List Value) : Except Untyped Terms :=
  (⟨·, values⟩) <$> typeOf values

/-- Terms under the key of the first of them. -/
def ofValues (values : List Value) : Terms :=
  match ofValuesStrict values with
  | .ok terms => terms
  | .error _ => ⟨.text, values⟩

/-- Terms that are strings. -/
def text (values : List String) : Terms :=
  ⟨.text, values.map .string⟩

/-- Terms that are numbers. -/
def number (values : List Value) : Terms :=
  ⟨.number, values⟩

/-- Terms that are truth values. -/
def boolean (values : List Bool) : Terms :=
  ⟨.boolean, values.map .bool⟩

/-- The term null. -/
def null : Terms :=
  ⟨.null, [.null]⟩

/-- The term of a double, null if it is infinite or no number. -/
def ofDouble (x : Double) : Terms :=
  if x.IsFinite then number [.double x] else null

/-- Terms as the member of an object. -/
def encodeMember (terms : Terms) : String × Json :=
  (terms.type.key, .array (terms.values.map Value.json))

/-- Reads terms under their key. -/
def read (room : Nat) (doc : Doc) : Read Terms :=
  doc.readLabelled room (TermType.all.map TermType.key) TermType.ofKey?
    (fun type doc =>
      (⟨type, ·⟩) <$> doc.readList (room - 1) (Doc.readValue (room - 2)))
    (fun _ => .error .labelAlone)

/-- Reads the text of terms. -/
def ofText (text : String) : Read Terms :=
  (Document.ofText text).read (read fullRoom)

/-- The first member that names a type, as terms. -/
def ofMembers (members : List (String × Json)) : Read Terms :=
  match members.findSome? fun (key, json) => (TermType.ofKey? key).map (·, json) with
  | some (type, json) =>
    (⟨type, ·⟩) <$> (Doc.ofJson json).readList fullRoom (Doc.readValue fullRoom)
  | none => .error (.noCase "ValueTerms")

end Terms

end StructuredQuery
