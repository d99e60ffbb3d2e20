import StructuredQuery.Plan
import StructuredQuery.Query.Reader

/-!
# Reading plans

A plan is an object whose key `op` names the operation and whose other keys are its
arguments, or an array of the name and the arguments in order.  As `op` may come after
the arguments, the outermost plan is first read whole, as a tree, and only its `op` is
checked on the way; then `Plan.readNode` reads the tree.  Inside a tree an operation may
also be given by its number.
-/

namespace StructuredQuery

namespace Plan

/-- The operations of plans. -/
inductive Op where
  | query
  | qtext
  | term
  | and
  | or
  | not
  | boost
  | propertiesFragment
  | directory
  | collection
  | document
  | documentFragment
  | locksFragment
  | range
  | value
  | word
  | collectionConstraint
  | custom
  | customGeospatial
  | geospatial
  | constraint
  | operatorState
  deriving DecidableEq, Repr

namespace Op

/-- All operations, in the order of their numbers. -/
def all : List Op :=
  [query, qtext, term, and, or, not, boost, propertiesFragment, directory, collection,
    document, documentFragment, locksFragment, range, value, word, collectionConstraint,
    custom, customGeospatial, geospatial, constraint, operatorState]

/-- The name of an operation. -/
def label : Op → String
  | query => "query"
  | qtext => "qtext"
  | term => "term"
  | and => "and"
  | or => "or"
  | not => "not"
  | boost => "boost"
  | propertiesFragment => "properties-fragment"
  | directory => "directory"
  | collection => "collection"
  | document => "document"
  | documentFragment => "document-fragment"
  | locksFragment => "locks-fragment"
  | range => "range"
  | value => "value"
  | word => "word"
  | collectionConstraint => "collection-constraint"
  | custom => "custom"
  | customGeospatial => "custom-geospatial"
  | geospatial => "geospatial"
  | constraint => "constraint"
  | operatorState => "operator-state"

/-- The name of an operation in messages about its arguments. -/
def title : Op → String
  | query => "Query"
  | qtext => "Qtext"
  | term => "Term"
  | and => "And"
  | or => "Or"
  | not => "Not"
  | boost => "Boost"
  | propertiesFragment => "PropertiesFragment"
  | directory => "Directory"
  | collection => "Collection"
  | document => "Document"
  | documentFragment => "DocumentFragment"
  | locksFragment => "LocksFragment"
  | range => "Range"
  | value => "Value"
  | word => "Word"
  | collectionConstraint => "CollectionConstraint"
  | custom => "Custom"
  | customGeospatial => "CustomGeospatial"
  | geospatial => "Geospatial"
  | constraint => "Constraint"
  | operatorState => "OperatorState"

/-- The operation with a name. -/
def ofLabel? (label : String) : Option Op :=
  all.find? (·.label = label)

/-- The operation with a name, or the names that there are. -/
def ofLabel (label : String) : Read Op :=
  Doc.readLabel (all.map Op.label) ofLabel? label

/-- The operation with a number. -/
def ofIndex (index : Nat) : Read Op :=
  match all[index]? with
  | some op => .ok op
  | none => .error (.unknownIndex index all.length)

/-- Reads the name of an operation. -/
def read : Doc → Read Op
  | .string label => do ofLabel (← Read.ofFlaw label)
  | doc => doc.refuse "variant identifier"

/-- Reads the name or the number of an operation. -/
def readAny : Doc → Read Op
  | .number (.ok (.integer index fits)) =>
    if index < 0 then (Doc.number (.ok (.integer index fits))).refuse "variant identifier"
    else ofIndex index.toNat
  | doc => read doc

end Op

/-- The key under which the operation stands. -/
def opKey : String :=
  "op"

/-! ### The outermost plan -/

/-- Reads the members of the outermost plan into a tree; `seen` says whether one of them
has named the operation. -/
def readMembers (room : Nat) (seen : Bool) : List Member → Read (List (String × Json) × Bool)
  | [] => .ok ([], seen)
  | (key, doc) :: members => do
    let key ← Read.ofFlaw key
    if key = opKey then
      if seen then .error (.duplicateField opKey)
      let op ← Op.read doc
      let (rest, seen) ← readMembers room true members
      return ((key, .string op.label) :: rest, seen)
    else
      let json ← doc.readTree room
      let (rest, seen) ← readMembers room seen members
      return ((key, json) :: rest, seen)

/-- Refuses a document that is no plan. -/
def refuse {α : Type} (doc : Doc) : Read α :=
  doc.refuse "internally tagged enum QueryPlan"

/-- Reads the outermost plan into a tree. -/
def readOuter (room : Nat) : Doc → Read Json
  | .object members ending =>
    if room = 0 then .fail .tooDeep
    else do
      let (members, seen) ← readMembers (room - 1) false members
      Doc.readEnding ending
      if seen then return .object members
      .error (.missingField opKey)
  | .array items ending =>
    if room = 0 then .fail .tooDeep
    else match items with
      | [] => do
        Doc.readEnding ending
        .error (.missingField opKey)
      | item :: items => do
        let op ← Op.read item
        let items ← items.mapM (Doc.readTree (room - 1))
        Doc.readEnding ending
        return .array (.string op.label :: items)
  | doc => refuse doc

/-! ### Plans in a tree -/

/-- Finds the operation among the members of a plan. -/
def findOp (found : Option Op) : List Member → Read Op
  | [] =>
    match found with
    | some op => .ok op
    | none => .error (.missingField opKey)
  | (key, doc) :: members => do
    let key ← Read.ofFlaw key
    if key = opKey then
      if found.isSome then .error (.duplicateField opKey)
      findOp (some (← Op.readAny doc)) members
    else findOp found members

/-- The readers of the plans inside a plan. -/
structure Inner where
  plan : Doc → Read Plan
  plans : Doc → Read (List Plan)

/-- The arguments of an operation, by key or in order. -/
inductive Arguments where
  | members (members : List Member) (ending : Option Break)
  | items (items : List Doc) (ending : Option Break)

/-- Reads the arguments of an operation as a record. -/
def Arguments.read {types : List Type} (op : Op) (fields : Fields types) :
    Arguments → Read (Tuple types)
  | .members list ending => fields.ofMembers list ending
  | .items list ending =>
    fields.ofItems .tree ("struct variant QueryPlan::" ++ op.title) list ending

/-- Reads an argument that may be any value. -/
def readValue (doc : Doc) : Read Value :=
  doc.readValue fullRoom

/-- Reads the arguments of an operation. -/
def readArguments (inner : Inner) (op : Op) (arguments : Arguments) : Read Plan :=
  let record {types : List Type} (fields : Fields types) (build : Tuple types → Plan) :
      Read Plan :=
    build <$> arguments.read op fields
  match op with
  | .query =>
    record (.orElse "queries" inner.plans [] .done) fun (plans, _) => .query plans
  | .qtext =>
    record (.required "text" (Words.read fullRoom) .done) fun (words, _) => .qtext words
  | .term =>
    record (.required "text" readValue (.optional "weight" Doc.readDouble .done))
      fun (text, weight, _) => .term text weight
  | .and => record (.orElse "queries" inner.plans [] .done) fun (plans, _) => .and plans
  | .or => record (.orElse "queries" inner.plans [] .done) fun (plans, _) => .or plans
  | .not => record (.required "query" inner.plan .done) fun (plan, _) => .not plan
  | .boost =>
    record (.optional "matching" inner.plan (.required "boosting" inner.plan .done))
      fun (matching, boosting, _) => .boost matching boosting
  | .propertiesFragment =>
    record (.required "query" inner.plan .done) fun (plan, _) => .propertiesFragment plan
  | .directory =>
    record (.orElse "uri" readValue .null .done) fun (uris, _) => .directory uris
  | .collection =>
    record (.orElse "uri" readValue .null .done) fun (uris, _) => .collection uris
  | .document =>
    record (.orElse "uri" readValue .null .done) fun (uris, _) => .document uris
  | .documentFragment =>
    record (.required "query" inner.plan .done) fun (plan, _) => .documentFragment plan
  | .locksFragment =>
    record (.required "query" inner.plan .done) fun (plan, _) => .locksFragment plan
  | .range =>
    record
      (.required "name" Doc.readString <|
        .optional "operator" RangeOperator.read <|
        .required "values" readValue <|
        .orElse "options" readValue .null .done)
      fun (name, operator, values, options, _) => .range name operator values options
  | .value =>
    record
      (.required "name" Doc.readString <|
        .required "values" readValue <|
        .optional "weight" Doc.readDouble .done)
      fun (name, values, weight, _) => .value name values weight
  | .word =>
    record
      (.required "name" Doc.readString <|
        .required "text" readValue <|
        .optional "weight" Doc.readDouble .done)
      fun (name, text, weight, _) => .word name text weight
  | .collectionConstraint =>
    record (.required "name" Doc.readString (.orElse "uri" readValue .null .done))
      fun (name, uris, _) => .collectionConstraint name uris
  | .custom =>
    record (.required "name" Doc.readString (.required "text" readValue .done))
      fun (name, text, _) => .custom name text
  | .customGeospatial =>
    record
      (.required "name" Doc.readString <|
        .optional "annotation" readValue <|
        .orElse "shapes" readValue .null .done)
      fun (name, remark, shapes, _) => .customGeospatial name remark shapes
  | .geospatial =>
    record (.required "name" Doc.readString (.orElse "shapes" readValue .null .done))
      fun (name, shapes, _) => .geospatial name shapes
  | .constraint =>
    record
      (.optional "kind" Doc.readString <|
        .required "name" Doc.readString <|
        .orElse "values" readValue .null .done)
      fun (kind, name, values, _) => .constraint kind name values
  | .operatorState =>
    record (.required "operator" Doc.readString (.required "state" Doc.readString .done))
      fun (operator, state, _) => .operatorState operator state

mutual

/-- Reads a plan in a tree. -/
def readNode : Nat → Doc → Read Plan
  | 0, .object .. | 0, .array .. => .fail .tooDeep
  | room + 1, .object members ending => do
    let op ← findOp none members
    readArguments ⟨readNode room, readNodes room⟩ op (.members members ending)
  | _ + 1, .array [] _ => .error (.missingField opKey)
  | room + 1, .array (item :: items) ending => do
    let op ← Op.readAny item
    readArguments ⟨readNode room, readNodes room⟩ op (.items items ending)
  | _, doc => refuse doc

/-- Reads a list of plans in a tree. -/
def readNodes : Nat → Doc → Read (List Plan)
  | 0, doc => doc.readList 0 refuse
  | room + 1, doc => doc.readList (room + 1) (readNode room)

end

/-- The plan that a tree holds. -/
def ofTree (json : Json) : Read Plan :=
  readNode fullRoom (Doc.ofJson json)

/-- Reads a plan. -/
def read (doc : Doc) : Read Plan := do
  ofTree (← readOuter fullRoom doc)

/-- Reads the text of a plan. -/
def ofText (text : String) : Read Plan :=
  (Document.ofText text).read read

end Plan

end StructuredQuery
