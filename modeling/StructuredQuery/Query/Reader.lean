import StructuredQuery.Query
import StructuredQuery.Record

/-!
# Reading queries

`Query.ofText` reads the wire form of a query: an object with the production as its
only key, and the parameters as a record.  Each of the two mutual readers opens a
container, so the room that is left bounds the recursion.  The bodies of the constraints
over values and shapes are open records: the keys that they do not name themselves hold
the terms or the lists of shapes.
-/

namespace StructuredQuery

namespace Doc

/-- Reads a list of strings. -/
def readStrings (room : Nat) (doc : Doc) : Read (List String) :=
  doc.readList room readString

/-- Reads a list of values. -/
def readValues (room : Nat) (doc : Doc) : Read (List Value) :=
  doc.readList room (readValue (room - 1))

end Doc

namespace ShapeLists

/-- The four lists as fields of a record. -/
def fields : Fields [List Value, List Value, List Value, List Value] :=
  .required "point" (Doc.readValues fullRoom) <|
  .required "box" (Doc.readValues fullRoom) <|
  .required "circle" (Doc.readValues fullRoom) <|
  .required "polygon" (Doc.readValues fullRoom) .done

/-- The lists of shapes among the members of an open record. -/
def ofMembers (members : List (String × Json)) : Read ShapeLists :=
  (fun (points, boxes, circles, polygons, _) => ⟨points, boxes, circles, polygons⟩) <$>
    fields.ofMembers (Doc.ofMembers members) none

end ShapeLists

namespace Query

/-! ### Bodies without queries -/

/-- Reads the parameters of a geospatial constraint. -/
def readGeospatial (room : Nat) (doc : Doc) : Read Query := do
  let ((name, _), others) ←
    (Fields.required "constraint-name" Doc.readString .done).readOpen
      "struct GeospatialConstraintQuery" room doc
  return .geospatialConstraint name (← ShapeLists.ofMembers others)

/-- Reads the parameters of a custom constraint over shapes. -/
def readCustomGeospatial (doc : Doc) : Read Query := do
  let ((name, remark, _), others) ←
    (Fields.required "constraint-name" Doc.readString
      (.optional "annotation" (Doc.readValue fullRoom) .done)).readOpen
        "struct CustomGeospatialQuery" fullRoom doc
  return .customGeospatialConstraint name remark (← ShapeLists.ofMembers others)

/-- Reads the parameters of a custom constraint over terms. -/
def readCustomTerms (doc : Doc) : Read Query :=
  (fun (name, text, _) => .customConstraint name text) <$>
    (Fields.required "constraint-name" Doc.readString
      (.required "text" (Doc.readStrings fullRoom) .done)).read
        .tree "struct CustomTermsQuery" fullRoom doc

/-- The custom constraint that a tree holds, over shapes if it can be. -/
def customOfTree? (json : Json) : Option Query :=
  [readCustomGeospatial, readCustomTerms].findSome? fun read =>
    (read (Doc.ofJson json)).toOption

/-- Reads the parameters of a custom constraint of either form. -/
def readCustom (room : Nat) (doc : Doc) : Read Query := do
  match customOfTree? (← doc.readTree room) with
  | some found => .ok found
  | none => .error (.noForm "CustomConstraintQuery")

/-- Reads the parameters of a value constraint. -/
def readValueConstraint (room : Nat) (doc : Doc) : Read Query := do
  let ((name, weight, _), others) ←
    (Fields.required "constraint-name" Doc.readString
      (.required "weight" Doc.readDouble .done)).readOpen
        "struct ValueConstraintQuery" room doc
  return .valueConstraint name weight (← Terms.ofMembers others)

/-! ### Bodies -/

/-- The readers of the queries inside a query. -/
structure Inner where
  /-- The parameters of a wrapper, which are the child itself. -/
  child : Doc → Read Query
  /-- A parameter that is a query. -/
  query : Doc → Read Query
  /-- A parameter that is a list of queries. -/
  queries : Doc → Read (List Query)

/-- Refuses whatever it is given, for no room is left. -/
def noRoom {α : Type} (_ : Doc) : Read α :=
  .fail .tooDeep

/-- Reads the parameters of a production. -/
def readParameters (inner : Inner) (room : Nat) (tag : Tag) (doc : Doc) : Read Query :=
  let record {types : List Type} (name : String) (fields : Fields types)
      (build : Tuple types → Query) : Read Query :=
    build <$> fields.read .text name room doc
  let strings := Doc.readStrings (room - 1)
  match tag with
  | .query =>
    record "struct QueryList" (.required "queries" inner.queries .done)
      fun (queries, _) => .query queries
  | .qtext => .qtext <$> Words.read room doc
  | .term =>
    record "struct TermQuery"
      (.required "text" strings (.required "weight" Doc.readDouble .done))
      fun (text, weight, _) => .term text weight
  | .and =>
    record "struct AndQuery"
      (.required "queries" inner.queries (.required "ordered" Doc.readBool .done))
      fun (queries, ordered, _) => .and queries ordered
  | .or =>
    record "struct QueryList" (.required "queries" inner.queries .done)
      fun (queries, _) => .or queries
  | .not => .not <$> inner.child doc
  | .boost =>
    record "struct BoostQuery"
      (.required "matching-query" inner.query (.required "boosting-query" inner.query .done))
      fun (matching, boosting, _) => .boost matching boosting
  | .propertiesFragment => .propertiesFragment <$> inner.child doc
  | .directory =>
    record "struct DirectoryQuery"
      (.required "uri" strings (.required "infinite" Doc.readBool .done))
      fun (uris, infinite, _) => .directory uris infinite
  | .collection =>
    record "struct UriQuery" (.required "uri" strings .done)
      fun (uris, _) => .collection uris
  | .document =>
    record "struct UriQuery" (.required "uri" strings .done)
      fun (uris, _) => .document uris
  | .documentFragment => .documentFragment <$> inner.child doc
  | .locksFragment => .locksFragment <$> inner.child doc
  | .rangeConstraint =>
    record "struct RangeConstraintQuery"
      (.required "constraint-name" Doc.readString <|
        .required "range-operator" RangeOperator.read <|
        .required "value" (Doc.readValues (room - 1)) <|
        .required "range-option" strings .done)
      fun (name, operator, values, options, _) => .rangeConstraint name operator values options
  | .valueConstraint => readValueConstraint room doc
  | .wordConstraint =>
    record "struct WordConstraintQuery"
      (.required "constraint-name" Doc.readString <|
        .required "text" strings <|
        .required "weight" Doc.readDouble .done)
      fun (name, text, weight, _) => .wordConstraint name text weight
  | .collectionConstraint =>
    record "struct CollectionConstraintQuery"
      (.required "constraint-name" Doc.readString (.required "uri" strings .done))
      fun (name, uris, _) => .collectionConstraint name uris
  | .customConstraint => readCustom room doc
  | .geospatialConstraint => readGeospatial room doc
  | .operatorState =>
    record "struct OperatorState"
      (.required "operator-name" Doc.readString (.required "state-name" Doc.readString .done))
      fun (operator, state, _) => .operatorState operator state

/-! ### Queries -/

/-- Reads a query whose parameters `body` reads. -/
def readLabelled (room : Nat) (body : Tag → Doc → Read Query) (doc : Doc) : Read Query :=
  doc.readLabelled room (Tag.all.map Tag.label) Tag.ofLabel? body
    fun _ => .error .labelAlone

mutual

/-- Reads a query. -/
def read : Nat → Doc → Read Query
  | 0 => readLabelled 0 fun _ => noRoom
  | 1 => readLabelled 1 (readParameters ⟨read 0, noRoom, noRoom⟩ 0)
  | room + 2 =>
    readLabelled (room + 2)
      (readParameters ⟨read (room + 1), read room, readList room⟩ (room + 1))

/-- Reads a list of queries. -/
def readList : Nat → Doc → Read (List Query)
  | 0, doc => doc.readList 0 noRoom
  | room + 1, doc => doc.readList (room + 1) (read room)

end

/-- Reads the wire text of a query. -/
def ofText (text : String) : Read Query :=
  (Document.ofText text).read (read fullRoom)

end Query

end StructuredQuery
