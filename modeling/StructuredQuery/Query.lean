import StructuredQuery.Classification
import StructuredQuery.RangeOperator
import StructuredQuery.Terms
import StructuredQuery.Words

/-!
# Queries

`Query` is the tree of a structured query, one constructor for each production of the
grammar; the custom constraint has two, over terms and over shapes.  `Tag` lists the
productions with the keys under which they are written.  `Query.tag` is the production of a
query, and `Query.label` names it.
-/

namespace StructuredQuery

/-- A structured query. -/
inductive Query where
  | query (queries : List Query)
  | qtext (words : Words)
  | term (text : List String) (weight : Double)
  | and (queries : List Query) (ordered : Bool)
  | or (queries : List Query)
  | not (query : Query)
  | boost (matching boosting : Query)
  | propertiesFragment (query : Query)
  | directory (uris : List String) (infinite : Bool)
  | collection (uris : List String)
  | document (uris : List String)
  | documentFragment (query : Query)
  | locksFragment (query : Query)
  | rangeConstraint (name : String) (operator : RangeOperator) (values : List Value)
      (options : List String)
  | valueConstraint (name : String) (weight : Double) (terms : Terms)
  | wordConstraint (name : String) (text : List String) (weight : Double)
  | collectionConstraint (name : String) (uris : List String)
  | customConstraint (name : String) (text : List String)
  | customGeospatialConstraint (name : String) (remark : Option Value) (shapes : ShapeLists)
  | geospatialConstraint (name : String) (shapes : ShapeLists)
  | operatorState (operator state : String)

/-- The productions of the grammar. -/
inductive Tag where
  | query
  | qtext
  | term
  | and
  | or
  | not
  | boost
  | propertiesFragment
  | directory
  | collection
  | document
  | documentFragment
  | locksFragment
  | rangeConstraint
  | valueConstraint
  | wordConstraint
  | collectionConstraint
  | customConstraint
  | geospatialConstraint
  | operatorState
  deriving DecidableEq, Repr

namespace Tag

/-- All productions, in the order of the grammar. -/
def all : List Tag :=
  [query, qtext, term, and, or, not, boost, propertiesFragment, directory, collection,
    document, documentFragment, locksFragment, rangeConstraint, valueConstraint,
    wordConstraint, collectionConstraint, customConstraint, geospatialConstraint,
    operatorState]

/-- The key under which a production is written. -/
def label : Tag → String
  | query => "query"
  | qtext => "qtext"
  | term => "term-query"
  | and => "and-query"
  | or => "or-query"
  | not => "not-query"
  | boost => "boost-query"
  | propertiesFragment => "properties-fragment-query"
  | directory => "directory-query"
  | collection => "collection-query"
  | document => "document-query"
  | documentFragment => "document-fragment-query"
  | locksFragment => "locks-fragment-query"
  | rangeConstraint => "range-constraint-query"
  | valueConstraint => "value-constraint-query"
  | wordConstraint => "word-constraint-query"
  | collectionConstraint => "collection-constraint-query"
  | customConstraint => "custom-constraint-query"
  | geospatialConstraint => "geospatial-constraint-query"
  | operatorState => "operator-state"

/-- The production that is written under a key. -/
def ofLabel? (label : String) : Option Tag :=
  all.find? (·.label = label)

end Tag

namespace Query

instance : Inhabited Query := ⟨.query []⟩

/-- The production of a query. -/
def tag : Query → Tag
  | query .. => .query
  | qtext .. => .qtext
  | term .. => .term
  | and .. => .and
  | or .. => .or
  | not .. => .not
  | boost .. => .boost
  | propertiesFragment .. => .propertiesFragment
  | directory .. => .directory
  | collection .. => .collection
  | document .. => .document
  | documentFragment .. => .documentFragment
  | locksFragment .. => .locksFragment
  | rangeConstraint .. => .rangeConstraint
  | valueConstraint .. => .valueConstraint
  | wordConstraint .. => .wordConstraint
  | collectionConstraint .. => .collectionConstraint
  | customConstraint .. => .customConstraint
  | customGeospatialConstraint .. => .customConstraint
  | geospatialConstraint .. => .geospatialConstraint
  | operatorState .. => .operatorState

/-- The name of a query, which is that of its production. -/
def label : Query → String
  | query .. => "query"
  | qtext .. => "qtext"
  | term .. => "term-query"
  | and .. => "and-query"
  | or .. => "or-query"
  | not .. => "not-query"
  | boost .. => "boost-query"
  | propertiesFragment .. => "properties-fragment-query"
  | directory .. => "directory-query"
  | collection .. => "collection-query"
  | document .. => "document-query"
  | documentFragment .. => "document-fragment-query"
  | locksFragment .. => "locks-fragment-query"
  | rangeConstraint .. => "range-constraint-query"
  | valueConstraint .. => "value-constraint-query"
  | wordConstraint .. => "word-constraint-query"
  | collectionConstraint .. => "collection-constraint-query"
  | customConstraint .. => "custom-constraint-query"
  | customGeospatialConstraint .. => "custom-constraint-query"
  | geospatialConstraint .. => "geospatial-constraint-query"
  | operatorState .. => "operator-state"

end Query

end StructuredQuery
