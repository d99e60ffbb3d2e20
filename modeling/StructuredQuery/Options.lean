import StructuredQuery.Config.Constraint

/-!
# Search options

Search options define constraints: each definition has a name, and among its other keys
one that shows the kind.  `Options.ofValue` takes the definitions from a document, and
`constraint` makes the constraint of the kind that the definition of a name shows.
-/

namespace StructuredQuery

/-- A definition of a constraint. -/
structure Definition where
  name : String
  /-- The object of all keys but the name. -/
  body : Value
  deriving DecidableEq

/-- The constraints that search options define. -/
structure Options where
  definitions : List Definition
  deriving DecidableEq

namespace Definition

/-- The keys of a definition that show a kind, the first of them deciding. -/
def kindKeys : List (String × ConstraintKind) :=
  [("range", .range), ("value", .value), ("word", .word), ("collection", .collection),
    ("custom", .custom), ("geo-elem", .geospatial), ("geo-elem-pair", .geospatial),
    ("geo-attr-pair", .geospatial), ("geo-path", .geospatial),
    ("geo-json-property", .geospatial), ("geo-json-property-pair", .geospatial),
    ("geo-region-path", .geospatial)]

/-- The kind that the keys of a definition show. -/
def kind (definition : Definition) : ConstraintKind :=
  match kindKeys.find? fun entry => (definition.body.get? entry.1).isSome with
  | some entry => entry.2
  | none => .unspecified

/-- Reads a definition.  A value has been read before, so there is room for all of it. -/
def ofValue (value : Value) : Read Definition := do
  let ((name, _), others) ←
    (Fields.required "name" Doc.readString .done).readOpen
      "struct ConstraintDefinition" value.json.depth (Doc.ofJson value.json)
  return ⟨name, .ofJson (.object others)⟩

end Definition

namespace Options

/-- The object that holds the options: the value under `options`, if there is one. -/
def root (value : Value) : Value :=
  (value.get? "options").getD value

/-- The values that should be definitions: one under `constraint`, or a list of them. -/
def entries (fields : List (String × Value)) : List Value :=
  match fields.lookup "constraint" with
  | some value => value.given
  | none => []

/-- The options of a document. -/
def ofValue (value : Value) : Build Options := do
  match (root value).fields? with
  | none => .error .optionsNotObject
  | some fields =>
    let definitions ← ((entries fields).mapM Definition.ofValue).mapError .badData
    return ⟨definitions⟩

/-- The options of a text. -/
def ofText (text : String) : Build Options := do
  ofValue (← (Value.ofText text).mapError .badData)

/-- The first definition of a name. -/
def find? (options : Options) (name : String) : Option Definition :=
  options.definitions.find? (·.name = name)

/-- The kind that the definition of a name shows. -/
def kindOf (options : Options) (name : String) : ConstraintKind :=
  match options.find? name with
  | some definition => definition.kind
  | none => .unspecified

/-- The constraint that is defined under a name. -/
def constraint (options : Options) (name : String) (values : List Value) : Query :=
  .constraint (options.kindOf name) name values

/-- The constraint that is defined under a name, under a configuration. -/
def constraintIn (options : Options) (config : Config) (name : String)
    (values : List Value) : Build Query :=
  config.constraint (options.kindOf name) name values

end Options

end StructuredQuery
