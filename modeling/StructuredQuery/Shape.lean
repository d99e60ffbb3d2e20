import StructuredQuery.Record

/-!
# Shapes

A shape is a point, a box, a circle or a polygon on the globe.  `Shape` is a shape of
known kind, with its form in JSON; an untyped value is taken for a shape of the kind
that its fields show.
-/

namespace StructuredQuery

/-- A place by latitude and longitude. -/
structure Point where
  latitude : Double
  longitude : Double
  deriving DecidableEq

/-- A shape of known kind. -/
inductive Shape where
  | point (place : Point)
  | box (south west north east : Double)
  | circle (radius : Double) (center : Point)
  | polygon (vertices : List Point)
  deriving DecidableEq

/-- The kinds of shapes. -/
inductive ShapeKind where
  | point
  | box
  | circle
  | polygon
  deriving DecidableEq, Repr

namespace ShapeKind

/-- The name of a kind. -/
def label : ShapeKind → String
  | point => "point"
  | box => "box"
  | circle => "circle"
  | polygon => "polygon"

end ShapeKind

namespace Point

/-- A point as an object with its fields in order. -/
def encode (point : Point) : Json :=
  .object [("latitude", .ofDouble point.latitude), ("longitude", .ofDouble point.longitude)]

/-- A point as a value. -/
def toValue (point : Point) : Value :=
  .object [("latitude", .double point.latitude), ("longitude", .double point.longitude)]

/-- Reads a point. -/
def read (doc : Doc) : Read Point :=
  (fun (latitude, longitude, _) => ⟨latitude, longitude⟩) <$>
    (Fields.required "latitude" Doc.readDouble
      (.required "longitude" Doc.readDouble .done)).read .tree "struct GeoPoint" fullRoom doc

end Point

namespace Shape

/-- The kind of a shape. -/
def kind : Shape → ShapeKind
  | point .. => .point
  | box .. => .box
  | circle .. => .circle
  | polygon .. => .polygon

/-- A shape as an object with its fields in order. -/
def encode : Shape → Json
  | point place => place.encode
  | box south west north east =>
    .object [("south", .ofDouble south), ("west", .ofDouble west),
      ("north", .ofDouble north), ("east", .ofDouble east)]
  | circle radius center =>
    .object [("radius", .ofDouble radius), ("point", center.encode)]
  | polygon vertices => .object [("point", .array (vertices.map Point.encode))]

/-- A shape as a value. -/
def toValue : Shape → Value
  | point place => place.toValue
  | box south west north east =>
    .object [("south", .double south), ("west", .double west),
      ("north", .double north), ("east", .double east)]
  | circle radius center => .object [("radius", .double radius), ("point", center.toValue)]
  | polygon vertices => .object [("point", .array (vertices.map Point.toValue))]

/-- Reads a box. -/
def readBox (doc : Doc) : Read Shape :=
  (fun (south, west, north, east, _) => .box south west north east) <$>
    (Fields.required "south" Doc.readDouble (.required "west" Doc.readDouble
      (.required "north" Doc.readDouble (.required "east" Doc.readDouble .done)))).read
      .tree "struct GeoBox" fullRoom doc

/-- Reads a circle. -/
def readCircle (doc : Doc) : Read Shape :=
  (fun (radius, center, _) => .circle radius center) <$>
    (Fields.required "radius" Doc.readDouble (.required "point" Point.read .done)).read
      .tree "struct GeoCircle" fullRoom doc

/-- Reads a polygon. -/
def readPolygon (doc : Doc) : Read Shape :=
  (fun (vertices, _) => .polygon vertices) <$>
    (Fields.required "point" (Doc.readList fullRoom Point.read) .done).read
      .tree "struct GeoPolygon" fullRoom doc

/-- The shape that a tree holds, the first that fits of point, box, circle and polygon. -/
def ofTree? (json : Json) : Option Shape :=
  [fun doc => .point <$> Point.read doc, readBox, readCircle, readPolygon].findSome?
    fun read => (read (Doc.ofJson json)).toOption

/-- Reads a shape of any kind. -/
def read (room : Nat) (doc : Doc) : Read Shape := do
  match ofTree? (← doc.readTree room) with
  | some shape => .ok shape
  | none => .error (.noForm "Shape")

/-- Reads the text of a shape. -/
def ofText (text : String) : Read Shape :=
  (Document.ofText text).read (read fullRoom)

end Shape

/-! ### Untyped shapes -/

namespace Value

/-- A field that is there and is not null, false, zero or the empty string. -/
def isTruthy : Option Value → Bool
  | none => false
  | some value =>
    match value.view with
    | .null => false
    | .bool b => b
    | .number n => !n.isZero
    | .string s => !s.isEmpty
    | .array _ | .object _ => true

/-- The kind of shape that the fields of a value show.  A circle has a `radius` beside
its `point`, so the order of the tests matters. -/
def shapeKind? (value : Value) : Option ShapeKind :=
  if isTruthy (value.get? "latitude") then some .point
  else if isTruthy (value.get? "south") then some .box
  else if isTruthy (value.get? "radius") then some .circle
  else if isTruthy (value.get? "point") then some .polygon
  else none

end Value

end StructuredQuery
