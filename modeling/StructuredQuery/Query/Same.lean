import StructuredQuery.Query

/-!
# Equality of queries

Two queries are the same if they have the same form and the same data, where doubles
are compared as numbers: the two zeros are equal, and what is no number equals nothing.
-/

namespace StructuredQuery

/-- Equality of lists of values, item by item. -/
def Value.sameList : List Value → List Value → Bool
  | [], [] => true
  | a :: as, b :: bs => a.same b && sameList as bs
  | _, _ => false

/-- Equality of values that may not be there. -/
def Value.sameOption : Option Value → Option Value → Bool
  | none, none => true
  | some a, some b => a.same b
  | _, _ => false

/-- Equality of lists of shapes. -/
def ShapeLists.same (a b : ShapeLists) : Bool :=
  Value.sameList a.points b.points && Value.sameList a.boxes b.boxes
    && Value.sameList a.circles b.circles && Value.sameList a.polygons b.polygons

/-- Equality of terms. -/
def Terms.same (a b : Terms) : Bool :=
  a.type = b.type && Value.sameList a.values b.values

namespace Query

mutual

/-- Equality of queries. -/
def same : Query → Query → Bool
  | .query a, .query b => sameList a b
  | .qtext a, .qtext b => a = b
  | .term text weight, .term text' weight' => text = text' && weight.same weight'
  | .and a ordered, .and b ordered' => sameList a b && ordered = ordered'
  | .or a, .or b => sameList a b
  | .not a, .not b => same a b
  | .boost a b, .boost a' b' => same a a' && same b b'
  | .propertiesFragment a, .propertiesFragment b => same a b
  | .directory uris infinite, .directory uris' infinite' =>
    uris = uris' && infinite = infinite'
  | .collection uris, .collection uris' => uris = uris'
  | .document uris, .document uris' => uris = uris'
  | .documentFragment a, .documentFragment b => same a b
  | .locksFragment a, .locksFragment b => same a b
  | .rangeConstraint name operator values options,
      .rangeConstraint name' operator' values' options' =>
    name = name' && operator = operator' && Value.sameList values values'
      && options = options'
  | .valueConstraint name weight terms, .valueConstraint name' weight' terms' =>
    name = name' && weight.same weight' && terms.same terms'
  | .wordConstraint name text weight, .wordConstraint name' text' weight' =>
    name = name' && text = text' && weight.same weight'
  | .collectionConstraint name uris, .collectionConstraint name' uris' =>
    name = name' && uris = uris'
  | .customConstraint name text, .customConstraint name' text' =>
    name = name' && text = text'
  | .customGeospatialConstraint name remark shapes,
      .customGeospatialConstraint name' remark' shapes' =>
    name = name' && Value.sameOption remark remark' && shapes.same shapes'
  | .geospatialConstraint name shapes, .geospatialConstraint name' shapes' =>
    name = name' && shapes.same shapes'
  | .operatorState operator state, .operatorState operator' state' =>
    operator = operator' && state = state'
  | _, _ => false
termination_by structural query => query

/-- Equality of lists of queries, one by one. -/
def sameList : List Query → List Query → Bool
  | [], [] => true
  | a :: as, b :: bs => same a b && sameList as bs
  | _, _ => false
termination_by structural queries => queries

end

end Query

end StructuredQuery
