import StructuredQuery.Shape

/-!
# Classification of shapes

A geospatial constraint holds its shapes in four lists by kind.  `classify` sorts
shapes into the lists, each in the order of the input, and sets aside, with their
positions, the values that show no kind.
-/

namespace StructuredQuery

/-- A shape that is handed to a constraint. -/
inductive ShapeInput where
  /-- A shape of known kind. -/
  | typed (shape : Shape)
  /-- A value whose fields show the kind. -/
  | raw (value : Value)

namespace ShapeInput

/-- The kind of a shape, if there is one. -/
def kind? : ShapeInput → Option ShapeKind
  | typed shape => some shape.kind
  | raw value => value.shapeKind?

/-- The value of a shape. -/
def toValue : ShapeInput → Value
  | typed shape => shape.toValue
  | raw value => value

end ShapeInput

/-- The four lists of shapes. -/
structure ShapeLists where
  points : List Value
  boxes : List Value
  circles : List Value
  polygons : List Value
  deriving DecidableEq

namespace ShapeLists

/-- No shapes. -/
def empty : ShapeLists :=
  ⟨[], [], [], []⟩

/-- A shape at the front of the list of its kind. -/
def cons (kind : ShapeKind) (shape : Value) (lists : ShapeLists) : ShapeLists :=
  match kind with
  | .point => { lists with points := shape :: lists.points }
  | .box => { lists with boxes := shape :: lists.boxes }
  | .circle => { lists with circles := shape :: lists.circles }
  | .polygon => { lists with polygons := shape :: lists.polygons }

/-- The number of shapes in the lists. -/
def size (lists : ShapeLists) : Nat :=
  lists.points.length + lists.boxes.length + lists.circles.length + lists.polygons.length

end ShapeLists

/-- Shapes sorted by kind, and those of no kind with their positions. -/
structure Classification where
  lists : ShapeLists
  unclassified : List (Nat × Value)
  deriving DecidableEq

namespace Classification

/-- Sorts shapes of which the first stands at position `index`. -/
def ofInputsFrom (index : Nat) : List ShapeInput → Classification
  | [] => ⟨.empty, []⟩
  | input :: inputs =>
    let rest := ofInputsFrom (index + 1) inputs
    match input.kind? with
    | some kind => { rest with lists := rest.lists.cons kind input.toValue }
    | none => { rest with unclassified := (index, input.toValue) :: rest.unclassified }

end Classification

/-- Sorts shapes. -/
def classify (inputs : List ShapeInput) : Classification :=
  .ofInputsFrom 0 inputs

end StructuredQuery
