import StructuredQuery.Query

/-!
# Queries with defaults

The constructors that fill in what the caller leaves out.  A weight that is not given,
zero or no number is one; an `and` is never ordered and a directory always infinite; a
range constraint compares for equality; shapes that show no kind are left out.
-/

namespace StructuredQuery

/-- The weight of a query for which `weight` is given. -/
def weightOrOne : Option Double → Double
  | some weight => if weight.isZero || weight.isNaN then .one else weight
  | none => .one

namespace Query

/-- A query for terms. -/
def ofTerms (text : List String) (weight : Option Double) : Query :=
  .term text (weightOrOne weight)

/-- A query that all of the queries match. -/
def allOf (queries : List Query) : Query :=
  .and queries false

/-- A boost of everything: the matching query is one of no parts. -/
def boostAll (boosting : Query) : Query :=
  .boost (allOf []) boosting

/-- A query for the documents in directories, at any depth. -/
def underDirectories (uris : List String) : Query :=
  .directory uris true

/-- A range constraint, with the standard operator if none is given. -/
def inRange (name : String) (values : List Value) (operator : Option RangeOperator)
    (options : List String) : Query :=
  .rangeConstraint name (operator.getD .standard) values options

/-- A value constraint. -/
def hasValue (name : String) (terms : Terms) (weight : Option Double) : Query :=
  .valueConstraint name (weightOrOne weight) terms

/-- A word constraint. -/
def hasWord (name : String) (text : List String) (weight : Option Double) : Query :=
  .wordConstraint name text (weightOrOne weight)

/-- A geospatial constraint over those of the shapes that show a kind. -/
def inShapes (name : String) (shapes : List ShapeInput) : Query :=
  .geospatialConstraint name (classify shapes).lists

/-- A custom constraint over those of the shapes that show a kind. -/
def inCustomShapes (name : String) (remark : Option Value) (shapes : List ShapeInput) :
    Query :=
  .customGeospatialConstraint name remark (classify shapes).lists

end Query

end StructuredQuery
