import StructuredQuery.BuildError
import StructuredQuery.Reading
import StructuredQuery.Text.UpperCase

/-!
# Range operators

The six comparisons of a range constraint.  Each has a label in capital letters.  A text is
taken to upper case, and is then one of six names or names no operator.
-/

namespace StructuredQuery

/-- The comparison that a range constraint applies. -/
inductive RangeOperator where
  | lt
  | le
  | gt
  | ge
  | eq
  | ne
  deriving DecidableEq, Repr

namespace RangeOperator

/-- The operator of a constraint that names none. -/
def standard : RangeOperator :=
  eq

/-- The label of an operator. -/
def label : RangeOperator → String
  | lt => "LT"
  | le => "LE"
  | gt => "GT"
  | ge => "GE"
  | eq => "EQ"
  | ne => "NE"

/-- The operator that a text in capital letters names. -/
def ofLabel? : String → Option RangeOperator
  | "LT" => some lt
  | "LE" => some le
  | "GT" => some gt
  | "GE" => some ge
  | "EQ" => some eq
  | "NE" => some ne
  | _ => none

/-- The operator that a text names in any case. -/
def ofText? (text : String) : Option RangeOperator :=
  ofLabel? (String.ofList (Text.upperCase text.toList))

/-- The operator that a text names in any case, or the text that names none. -/
def ofText (text : String) : Build RangeOperator :=
  match ofText? text with
  | some operator => .ok operator
  | none => .error (.unknownRangeOperator text)

/-- Reads an operator. -/
def read (doc : Doc) : Read RangeOperator := do
  let text ← doc.readString
  match ofText? text with
  | some operator => .ok operator
  | none => .error (.unknownOperator text)

end RangeOperator

end StructuredQuery
