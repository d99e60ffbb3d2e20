import StructuredQuery.Terms

/-!
# Errors of building

`BuildError` lists why a query, a configuration, search options or a plan are refused.
`message` gives the wording of each.
-/

namespace StructuredQuery

/-- Why something is refused. -/
inductive BuildError where
  /-- A shape that shows no kind, at a position of the list of shapes. -/
  | unclassifiableShape (index : Nat) (shape : Value)
  /-- A label of no kind of constraint. -/
  | unknownConstraintKind (label : String)
  /-- Terms that have no type of their own. -/
  | untypedTerms (cause : Untyped)
  /-- A text that names no range operator. -/
  | unknownRangeOperator (text : String)
  /-- A configuration that cannot be read. -/
  | badConfig (cause : ReadError)
  /-- Search options that are no object. -/
  | optionsNotObject
  /-- A plan that cannot be read. -/
  | badPlan (cause : ReadError)
  /-- An argument of a plan that holds something else than strings. -/
  | notAString (field : String) (value : Value)
  /-- A text that cannot be read. -/
  | badData (cause : ReadError)
  deriving DecidableEq

namespace Untyped

/-- The wording of a cause. -/
def message : Untyped → String
  | empty => "no terms given"
  | container first => s!"first term is not a scalar: {first.text}"

end Untyped

namespace BuildError

/-- The message of an error. -/
def message : BuildError → String
  | unclassifiableShape index shape =>
    s!"shape {numeral index} is not a point, box, circle or polygon: {shape.text}"
  | unknownConstraintKind label => s!"unknown constraint kind: {label}"
  | untypedTerms cause => s!"cannot tag value constraint terms: {cause.message}"
  | unknownRangeOperator operator => s!"unknown range operator: {operator}"
  | badConfig cause => s!"invalid configuration: {cause.message}"
  | optionsNotObject => "invalid configuration: search options must be a JSON object"
  | badPlan cause => s!"invalid query plan: {cause.message}"
  | notAString field value =>
    s!"invalid query plan: `{field}` expects strings, got {value.text}"
  | badData cause => s!"serialization error: {cause.message}"

/-- The message of the error behind an error, if there is one. -/
def cause? : BuildError → Option String
  | badData cause => some cause.message
  | _ => none

end BuildError

/-- The result of building. -/
abbrev Build (α : Type) := Except BuildError α

end StructuredQuery
