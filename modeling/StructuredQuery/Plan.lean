import StructuredQuery.Config.Constraint

/-!
# Plans

A plan describes a query by operations, each with arguments that may be given in
several forms: a value where a list is meant, or nothing at all.  `Plan.compile` makes
the query.  It stops at the first operation that is refused, in the order in which the
operations are compiled; a boost compiles what it boosts before what must match.
-/

namespace StructuredQuery

/-- A plan, one constructor for each operation. -/
inductive Plan where
  | query (queries : List Plan)
  | qtext (words : Words)
  | term (text : Value) (weight : Option Double)
  | and (queries : List Plan)
  | or (queries : List Plan)
  | not (query : Plan)
  | boost (matching : Option Plan) (boosting : Plan)
  | propertiesFragment (query : Plan)
  | directory (uris : Value)
  | collection (uris : Value)
  | document (uris : Value)
  | documentFragment (query : Plan)
  | locksFragment (query : Plan)
  | range (name : String) (operator : Option RangeOperator) (values options : Value)
  | value (name : String) (values : Value) (weight : Option Double)
  | word (name : String) (text : Value) (weight : Option Double)
  | collectionConstraint (name : String) (uris : Value)
  | custom (name : String) (text : Value)
  | customGeospatial (name : String) (remark : Option Value) (shapes : Value)
  | geospatial (name : String) (shapes : Value)
  /-- A constraint whose kind is chosen by its label. -/
  | constraint (kind : Option String) (name : String) (values : Value)
  | operatorState (operator state : String)

namespace Plan

instance : Inhabited Plan := ⟨.query []⟩

/-- The strings of an argument that may be one string, a list of them, or nothing. -/
def strings (field : String) (argument : Value) : Build (List String) :=
  argument.given.mapM fun item =>
    match item.view with
    | .string s => .ok s
    | _ => .error (.notAString field item)

/-- The shapes of an argument that may be one shape, a list of them, or nothing. -/
def inputs (argument : Value) : List ShapeInput :=
  argument.given.map .raw

mutual

/-- The query that a plan describes, under a configuration. -/
def compile (config : Config) : Plan → Build Query
  | .query plans => .query <$> compileList config plans
  | .qtext words => .ok (.qtext words)
  | .term text weight => do return .ofTerms (← strings "text" text) weight
  | .and plans => .allOf <$> compileList config plans
  | .or plans => .or <$> compileList config plans
  | .not plan => .not <$> compile config plan
  | .boost none boosting => .boostAll <$> compile config boosting
  | .boost (some matching) boosting => do
    let boosting ← compile config boosting
    return .boost (← compile config matching) boosting
  | .propertiesFragment plan => .propertiesFragment <$> compile config plan
  | .directory uris => .underDirectories <$> strings "uri" uris
  | .collection uris => .collection <$> strings "uri" uris
  | .document uris => .document <$> strings "uri" uris
  | .documentFragment plan => .documentFragment <$> compile config plan
  | .locksFragment plan => .locksFragment <$> compile config plan
  | .range name operator values options => do
    return .inRange name values.elements operator (← strings "options" options)
  | .value name values weight => config.hasValue name values.elements weight
  | .word name text weight => do return .hasWord name (← strings "text" text) weight
  | .collectionConstraint name uris => .collectionConstraint name <$> strings "uri" uris
  | .custom name text => .customConstraint name <$> strings "text" text
  | .customGeospatial name remark shapes =>
    config.inCustomShapes name remark (inputs shapes)
  | .geospatial name shapes => config.inShapes name (inputs shapes)
  | .constraint kind name values => config.constraintForLabel kind name values.given
  | .operatorState operator state => .ok (.operatorState operator state)
termination_by structural plan => plan

/-- The queries that plans describe, one after the other. -/
def compileList (config : Config) : List Plan → Build (List Query)
  | [] => .ok []
  | plan :: plans => do
    let query ← compile config plan
    return query :: (← compileList config plans)
termination_by structural plans => plans

end

end Plan

end StructuredQuery
