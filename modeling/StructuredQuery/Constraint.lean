import StructuredQuery.Query.Defaults

/-!
# Constraints by kind

A constraint can be chosen by the label of its kind.  All kinds are made from a name
and a list of values; a label that is not known, or none, makes a range constraint.
-/

namespace StructuredQuery

/-- The kinds of constraints that a label can choose. -/
inductive ConstraintKind where
  | range
  | value
  | word
  | collection
  | custom
  | customGeospatial
  | geospatial
  /-- No known kind. -/
  | unspecified
  deriving DecidableEq, Repr

namespace ConstraintKind

/-- The kinds that have a label. -/
def labelled : List ConstraintKind :=
  [range, value, word, collection, custom, customGeospatial, geospatial]

/-- The label of a kind. -/
def label? : ConstraintKind → Option String
  | range => some "range"
  | value => some "value"
  | word => some "word"
  | collection => some "collection"
  | custom => some "custom"
  | customGeospatial => some "custom-geospatial"
  | geospatial => some "geospatial"
  | unspecified => none

/-- The name of a kind. -/
def name (kind : ConstraintKind) : String :=
  kind.label?.getD "unspecified"

/-- The kind with a label. -/
def ofLabel? (label : String) : Option ConstraintKind :=
  labelled.find? (·.label? = some label)

/-- The kind with a label, if there is one. -/
def ofLabel (label : Option String) : ConstraintKind :=
  (label.bind ofLabel?).getD unspecified

end ConstraintKind

namespace Value

/-- A string as it is, any other value as its text. -/
def plainText (value : Value) : String :=
  match value.view with
  | .string s => s
  | _ => value.text

end Value

namespace Query

/-- The constraint of a kind with a name and values. -/
def constraint (kind : ConstraintKind) (name : String) (values : List Value) : Query :=
  match kind with
  | .range | .unspecified => inRange name values none []
  | .value => hasValue name (.ofValues values) none
  | .word => hasWord name (values.map Value.plainText) none
  | .collection => .collectionConstraint name (values.map Value.plainText)
  | .custom => .customConstraint name (values.map Value.plainText)
  | .customGeospatial => inCustomShapes name none (values.map .raw)
  | .geospatial => inShapes name (values.map .raw)

end Query

end StructuredQuery
