import StructuredQuery.Double.Shortest
import StructuredQuery.Json.Flaw
import StructuredQuery.Json.Text
import StructuredQuery.Text.Shown

/-!
# Errors of reading

`ReadError` lists why a document cannot be read as the data that it should hold: a flaw
of the text, or data of another form.  `message` gives the wording of each.
-/

namespace StructuredQuery

/-- The decimal numeral of a whole number. -/
def numeral (value : Int) : String :=
  String.ofList (Json.integerChars value)

/-- What stands in a document where something else is expected. -/
inductive Found where
  | null
  | bool (value : Bool)
  | number (value : Number)
  | string (value : String)
  | array
  | object
  deriving DecidableEq

namespace Found

/-- The name of what was found. -/
def text : Found → String
  | null => "null"
  | bool value => s!"boolean `{String.ofList (Json.boolChars value)}`"
  | number (.integer value _) => s!"integer `{numeral value}`"
  | number (.float value _) => s!"floating point `{String.ofList value.chars}`"
  | string value => s!"string {Text.shown value}"
  | array => "sequence"
  | object => "map"

end Found

/-- Why a document cannot be read. -/
inductive ReadError where
  | text (flaw : Flaw)
  /-- Data of another type than the expected one. -/
  | wrongType (found : Found) (expected : String)
  /-- A list of another length than the expected one. -/
  | wrongLength (length : Nat) (expected : String)
  /-- A label that is none of the known ones. -/
  | unknownLabel (label : String) (known : List String)
  /-- The number of a label that does not exist. -/
  | unknownIndex (index : Int) (count : Nat)
  /-- A label alone where it must come with content. -/
  | labelAlone
  | missingField (key : String)
  | duplicateField (key : String)
  /-- Data that has none of the forms of a type. -/
  | noForm (type : String)
  /-- Fields of which none names a case of a type. -/
  | noCase (type : String)
  /-- A text that names no range operator. -/
  | unknownOperator (text : String)
  deriving DecidableEq

namespace ReadError

/-- A label between back quotes. -/
def mark (label : String) : String :=
  s!"`{label}`"

/-- The labels that would have been right. -/
def alternatives : List String → String
  | [a, b] => s!"{mark a} or {mark b}"
  | labels => "one of " ++ String.intercalate ", " (labels.map mark)

/-- The message of an error. -/
def message : ReadError → String
  | text flaw => flaw.message
  | wrongType found expected => s!"invalid type: {found.text}, expected {expected}"
  | wrongLength length expected => s!"invalid length {numeral length}, expected {expected}"
  | unknownLabel label known => s!"unknown variant `{label}`, expected {alternatives known}"
  | unknownIndex index count =>
    s!"invalid value: integer `{numeral index}`, expected variant index 0 <= i < {numeral count}"
  | labelAlone => "invalid type: unit variant, expected newtype variant"
  | missingField key => s!"missing field `{key}`"
  | duplicateField key => s!"duplicate field `{key}`"
  | noForm type => s!"data did not match any variant of untagged enum {type}"
  | noCase type => s!"no variant of enum {type} found in flattened data"
  | unknownOperator operator => s!"unknown range operator: {operator}"

end ReadError

/-- The result of reading. -/
abbrev Read (α : Type) := Except ReadError α

/-- Gives up because of a flaw. -/
def Read.fail {α : Type} (flaw : Flaw) : Read α :=
  .error (.text flaw)

/-- What has been read of the text, or its flaw. -/
def Read.ofFlaw {α : Type} : Except Flaw α → Read α
  | .ok value => .ok value
  | .error flaw => .fail flaw

end StructuredQuery
