import StructuredQuery.Json.Text
import StructuredQuery.Query

/-!
# The wire form of queries

`Query.encode` is the JSON of a query: an object whose only key is that of the production,
with the parameters under it.  The wrappers, `not` and the fragments, hold the child
itself.  `toText` and `toPrettyText` write it.
-/

namespace StructuredQuery

/-- Strings in JSON. -/
def encodeStrings (texts : List String) : Json :=
  .array (texts.map .string)

/-- Values in JSON. -/
def encodeValues (values : List Value) : Json :=
  .array (values.map Value.json)

/-- The members that hold the four lists of shapes. -/
def ShapeLists.encodeMembers (shapes : ShapeLists) : List (String × Json) :=
  [("point", encodeValues shapes.points), ("box", encodeValues shapes.boxes),
    ("circle", encodeValues shapes.circles), ("polygon", encodeValues shapes.polygons)]

/-- The parameters of a production under its key. -/
def Tag.wrap (tag : Tag) (body : Json) : Json :=
  .object [(tag.label, body)]

namespace Query

mutual

/-- The JSON of a query. -/
def encode : Query → Json
  | .query children =>
    Tag.query.wrap (.object [("queries", .array (encodeList children))])
  | .qtext words => Tag.qtext.wrap words.encode
  | .term text weight =>
    Tag.term.wrap (.object [("text", encodeStrings text), ("weight", .ofDouble weight)])
  | .and children ordered =>
    Tag.and.wrap
      (.object [("queries", .array (encodeList children)), ("ordered", .bool ordered)])
  | .or children => Tag.or.wrap (.object [("queries", .array (encodeList children))])
  | .not child => Tag.not.wrap child.encode
  | .boost matching boosting =>
    Tag.boost.wrap
      (.object [("matching-query", matching.encode), ("boosting-query", boosting.encode)])
  | .propertiesFragment child => Tag.propertiesFragment.wrap child.encode
  | .directory uris infinite =>
    Tag.directory.wrap (.object [("uri", encodeStrings uris), ("infinite", .bool infinite)])
  | .collection uris => Tag.collection.wrap (.object [("uri", encodeStrings uris)])
  | .document uris => Tag.document.wrap (.object [("uri", encodeStrings uris)])
  | .documentFragment child => Tag.documentFragment.wrap child.encode
  | .locksFragment child => Tag.locksFragment.wrap child.encode
  | .rangeConstraint name operator values options =>
    Tag.rangeConstraint.wrap
      (.object [("constraint-name", .string name), ("range-operator", .string operator.label),
        ("value", encodeValues values), ("range-option", encodeStrings options)])
  | .valueConstraint name weight terms =>
    Tag.valueConstraint.wrap
      (.object [("constraint-name", .string name), ("weight", .ofDouble weight),
        terms.encodeMember])
  | .wordConstraint name text weight =>
    Tag.wordConstraint.wrap
      (.object [("constraint-name", .string name), ("text", encodeStrings text),
        ("weight", .ofDouble weight)])
  | .collectionConstraint name uris =>
    Tag.collectionConstraint.wrap
      (.object [("constraint-name", .string name), ("uri", encodeStrings uris)])
  | .customConstraint name text =>
    Tag.customConstraint.wrap
      (.object [("constraint-name", .string name), ("text", encodeStrings text)])
  | .customGeospatialConstraint name remark shapes =>
    Tag.customConstraint.wrap
      (.object (("constraint-name", .string name)
        :: (remark.toList.map fun value => ("annotation", value.json))
        ++ shapes.encodeMembers))
  | .geospatialConstraint name shapes =>
    Tag.geospatialConstraint.wrap
      (.object (("constraint-name", .string name) :: shapes.encodeMembers))
  | .operatorState operator state =>
    Tag.operatorState.wrap
      (.object [("operator-name", .string operator), ("state-name", .string state)])
termination_by structural query => query

/-- The JSON of each query. -/
def encodeList : List Query → List Json
  | [] => []
  | child :: children => child.encode :: encodeList children
termination_by structural children => children

end

/-- The wire text of a query. -/
def toText (query : Query) : String :=
  query.encode.compact

/-- The indented wire text of a query. -/
def toPrettyText (query : Query) : String :=
  query.encode.pretty

end Query

end StructuredQuery
