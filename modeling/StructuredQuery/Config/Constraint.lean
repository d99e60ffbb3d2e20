import StructuredQuery.BuildError
import StructuredQuery.Config
import StructuredQuery.Constraint

/-!
# Constraints under a configuration

The constraints that have a silent default, under a configuration that says whether it
is taken.  Under the permissive configuration each of them is what the constructor of
its kind makes.
-/

namespace StructuredQuery

/-- Sorts shapes; in strict mode a shape that shows no kind is refused. -/
def classifyIn (mode : Mode) (inputs : List ShapeInput) : Build Classification :=
  let classification := classify inputs
  match mode, classification.unclassified with
  | .strict, (index, shape) :: _ => .error (.unclassifiableShape index shape)
  | _, _ => .ok classification

namespace Config

/-- A geospatial constraint. -/
def inShapes (config : Config) (name : String) (shapes : List ShapeInput) : Build Query := do
  return .geospatialConstraint name (← classifyIn config.shapes shapes).lists

/-- A custom constraint over shapes. -/
def inCustomShapes (config : Config) (name : String) (remark : Option Value)
    (shapes : List ShapeInput) : Build Query := do
  return .customGeospatialConstraint name remark (← classifyIn config.shapes shapes).lists

/-- Terms under the key of the first of them. -/
def termsOf (config : Config) (values : List Value) : Build Terms :=
  match config.labels with
  | .permissive => .ok (.ofValues values)
  | .strict => (Terms.ofValuesStrict values).mapError .untypedTerms

/-- A value constraint over untyped terms. -/
def hasValue (config : Config) (name : String) (values : List Value)
    (weight : Option Double) : Build Query := do
  return .hasValue name (← config.termsOf values) weight

/-- The kind with a label.  A label that is not known is refused in strict mode. -/
def constraintKind (config : Config) (label : Option String) : Build ConstraintKind :=
  match config.labels, label with
  | .strict, some label =>
    match ConstraintKind.ofLabel? label with
    | some kind => .ok kind
    | none => .error (.unknownConstraintKind label)
  | _, _ => .ok (.ofLabel label)

/-- The constraint of a kind with a name and values. -/
def constraint (config : Config) (kind : ConstraintKind) (name : String)
    (values : List Value) : Build Query :=
  match kind with
  | .value => config.hasValue name values none
  | .geospatial => config.inShapes name (values.map .raw)
  | .customGeospatial => config.inCustomShapes name none (values.map .raw)
  | .range | .word | .collection | .custom | .unspecified =>
    .ok (.constraint kind name values)

/-- The constraint of the kind with a label. -/
def constraintForLabel (config : Config) (label : Option String) (name : String)
    (values : List Value) : Build Query := do
  config.constraint (← config.constraintKind label) name values

end Config

end StructuredQuery
