import StructuredQuery.Proofs.Building
import StructuredQuery.Proofs.Defaults
import StructuredQuery.Proofs.Plan.Nodes

/-!
# When plans are refused

`Plan.localError` is what is wrong with one operation under a configuration, whatever
stands inside it.  A plan is refused exactly if one of its operations has a local error,
and then with the error of the first of them in the order in which they are carried out.
-/

namespace StructuredQuery

/-! ### What is wrong with an argument -/

namespace Value

/-- The value is a string. -/
def isString (value : Value) : Bool :=
  match value.view with
  | .string _ => true
  | _ => false

/-- The value is an array or an object. -/
def isContainer (value : Value) : Bool :=
  match value.view with
  | .array _ | .object _ => true
  | _ => false

end Value

namespace Plan

/-- The first element of an argument of strings that is no string. -/
def stringsError (field : String) (argument : Value) : Option BuildError :=
  (argument.given.find? fun item => !item.isString).map (.notAString field)

end Plan

namespace Config

/-- Strict labels ask for a first term that is a scalar. -/
def termsError (config : Config) (values : List Value) : Option BuildError :=
  match config.labels, values with
  | .permissive, _ => none
  | .strict, [] => some (.untypedTerms .empty)
  | .strict, first :: _ =>
    if first.isContainer then some (.untypedTerms (.container first)) else none

/-- Strict shapes ask that every value shows a kind; the first that shows none is named
with its position. -/
def shapesError (config : Config) (values : List Value) : Option BuildError :=
  match config.shapes with
  | .permissive => none
  | .strict =>
    (values.zipIdx.find? fun entry => entry.1.shapeKind? = none).map
      fun entry => .unclassifiableShape entry.2 entry.1

/-- Strict labels ask for a label of a kind, or none. -/
def labelError (config : Config) (label : Option String) : Option BuildError :=
  match config.labels, label with
  | .strict, some label =>
    if ∃ kind ∈ ConstraintKind.labelled, kind.label? = some label then none
    else some (.unknownConstraintKind label)
  | _, _ => none

/-- What is wrong with the values of a constraint of a kind. -/
def kindError (config : Config) (kind : ConstraintKind) (values : List Value) :
    Option BuildError :=
  match kind with
  | .value => config.termsError values
  | .geospatial | .customGeospatial => config.shapesError values
  | .range | .word | .collection | .custom | .unspecified => none

end Config

namespace Plan

/-- What is wrong with an operation itself, if anything is.  The label of a constraint is
looked at before its values. -/
def localError (config : Config) : Plan → Option BuildError
  | term text _ | word _ text _ | custom _ text => stringsError "text" text
  | directory uris | collection uris | document uris | collectionConstraint _ uris =>
    stringsError "uri" uris
  | range _ _ _ options => stringsError "options" options
  | value _ values _ => config.termsError values.elements
  | customGeospatial _ _ shapes | geospatial _ shapes => config.shapesError shapes.given
  | constraint label _ values =>
    (config.labelError label).or (config.kindError (.ofLabel label) values.given)
  | query _ | qtext _ | and _ | or _ | not _ | boost .. | propertiesFragment _
  | documentFragment _ | locksFragment _ | operatorState .. => none

/-! ### Each argument fails with its error -/

/-- An argument of strings fails at its first element that is no string. -/
theorem error?_strings (field : String) (argument : Value) :
  (strings field argument).error? = stringsError field argument
  := by
  rw [strings, stringsError, Build.error?_mapM]
  induction argument.given with
  | nil => rfl
  | cons item items ih =>
    rw [List.findSome?_cons, List.find?_cons, Value.isString]
    cases item.view with
    | string text => apply ih
    | _ => rfl

/-- Of shapes that are sorted from a position on, the first that shows no kind is the first
that is set aside. -/
theorem head?_unclassified (index : Nat) (values : List Value) :
  (Classification.ofInputsFrom index (values.map .raw)).unclassified.head?
    = ((values.zipIdx index).find? fun entry => entry.1.shapeKind? = none).map Prod.swap
  := by
  induction values generalizing index with
  | nil => rfl
  | cons value values ih =>
    rw [List.map_cons, Classification.ofInputsFrom, List.zipIdx_cons, List.find?_cons,
      ShapeInput.kind?]
    cases hkind : value.shapeKind? with
    | some kind => simp [ih]
    | none => simp [ShapeInput.toValue]

end Plan

namespace Config

theorem error?_classifyIn (config : Config) (values : List Value) :
  (classifyIn config.shapes (values.map .raw)).error? = config.shapesError values
  := by
  have hhead := Plan.head?_unclassified 0 values
  unfold classifyIn shapesError
  dsimp only
  rw [classify]
  cases config.shapes with
  | permissive => rfl
  | strict =>
    cases hrest : (Classification.ofInputsFrom 0 (values.map .raw)).unclassified with
    | nil =>
      rw [hrest, List.head?_nil, eq_comm, Option.map_eq_none_iff] at hhead
      rw [hhead]
      rfl
    | cons entry rest =>
      rw [hrest, List.head?_cons, eq_comm, Option.map_eq_some_iff] at hhead
      obtain ⟨found, hfound, rfl⟩ := hhead
      rw [hfound]
      rfl

theorem error?_termsOf (config : Config) (values : List Value) :
  (config.termsOf values).error? = config.termsError values
  := by
  rw [termsOf]
  unfold termsError
  cases config.labels with
  | permissive => rfl
  | strict =>
    cases values with
    | nil => rfl
    | cons first rest =>
      rw [Terms.ofValuesStrict, Terms.typeOf]
      cases hview : first.view with
      | array items | object fields =>
        have hcontainer : first.isContainer := by rw [Value.isContainer, hview]
        simp only [hcontainer, if_true]
        rfl
      | _ =>
        have hscalar : ¬first.isContainer := by simp [Value.isContainer, hview]
        simp only [hscalar]
        rfl

theorem error?_inShapes (config : Config) (name : String) (values : List Value) :
  (config.inShapes name (values.map .raw)).error? = config.shapesError values
  := by
  rw [inShapes, bind_pure_comp, Build.error?_map, error?_classifyIn]

theorem error?_inCustomShapes (config : Config) (name : String) (remark : Option Value)
    (values : List Value) :
  (config.inCustomShapes name remark (values.map .raw)).error? = config.shapesError values
  := by
  rw [inCustomShapes, bind_pure_comp, Build.error?_map, error?_classifyIn]

theorem error?_hasValue (config : Config) (name : String) (values : List Value)
    (weight : Option Double) :
  (config.hasValue name values weight).error? = config.termsError values
  := by
  rw [hasValue, bind_pure_comp, Build.error?_map, error?_termsOf]

theorem error?_constraint (config : Config) (kind : ConstraintKind) (name : String)
    (values : List Value) :
  (config.constraint kind name values).error? = config.kindError kind values
  := by
  cases kind with
  | value => apply error?_hasValue
  | geospatial => apply error?_inShapes
  | customGeospatial => apply error?_inCustomShapes
  | _ => rfl

end Config

namespace ConstraintKind

/-- A label names no kind exactly if it is the label of none. -/
theorem ofLabel?_eq_none_iff (label : String) :
  ofLabel? label = none ↔ ¬∃ kind ∈ labelled, kind.label? = some label
  := by
  simp [ofLabel?]

end ConstraintKind

namespace Config

theorem error?_constraintKind (config : Config) (label : Option String) :
  (config.constraintKind label).error? = config.labelError label
  := by
  unfold constraintKind labelError
  cases config.labels with
  | permissive => rfl
  | strict =>
    cases label with
    | none => rfl
    | some label =>
      dsimp only
      cases hkind : ConstraintKind.ofLabel? label with
      | none =>
        rw [if_neg ((ConstraintKind.ofLabel?_eq_none_iff label).mp hkind)]
        rfl
      | some kind =>
        rw [if_pos]
        · rfl
        · by_contra hunknown
          rw [(ConstraintKind.ofLabel?_eq_none_iff label).mpr hunknown] at hkind
          cases hkind

/-- The label of a constraint fails before its values. -/
theorem error?_constraintForLabel (config : Config) (label : Option String) (name : String)
    (values : List Value) :
  (config.constraintForLabel label name values).error?
    = (config.labelError label).or (config.kindError (.ofLabel label) values)
  := by
  rw [constraintForLabel, Build.error?_bind _ _ (config.kindError (.ofLabel label) values),
    error?_constraintKind]
  intro kind hkind
  rw [eq_ofLabel_of_constraintKind hkind, error?_constraint]

end Config

/-! ### Plans -/

namespace Plan

/-- An operation has the error of the first child that has one, or else its own. -/
theorem error?_compile_eq (config : Config) (plan : Plan) :
  (compile config plan).error?
    = (plan.children.findSome? fun child => (compile config child).error?).or
      (plan.localError config)
  := by
  cases plan with
  | query plans | and plans | or plans =>
    rw [compile, Build.error?_map, compileList_eq, Build.error?_mapM, localError, Option.or_none]
    rfl
  | not plan | propertiesFragment plan | documentFragment plan | locksFragment plan =>
    rw [compile, Build.error?_map, localError, Option.or_none]
    cases hplan : (compile config plan).error? <;> simp [children, hplan]
  | boost matching boosting =>
    cases matching with
    | none =>
      rw [compile, Build.error?_map, localError, Option.or_none]
      cases hboosting : (compile config boosting).error? <;> simp [children, hboosting]
    | some matching =>
      rw [compile, Build.error?_bind _ _ (compile config matching).error?, localError,
        Option.or_none]
      · cases hboosting : (compile config boosting).error? <;>
          cases hmatching : (compile config matching).error? <;>
          simp [children, hboosting, hmatching]
      · intro value _
        rw [bind_pure_comp, Build.error?_map]
  | term | range | word =>
    rw [compile, bind_pure_comp, Build.error?_map, error?_strings]
    rfl
  | directory | collection | document | collectionConstraint | custom =>
    rw [compile, Build.error?_map, error?_strings]
    rfl
  | value name values weight =>
    rw [compile, Config.error?_hasValue]
    rfl
  | customGeospatial name remark shapes =>
    rw [compile, inputs, Config.error?_inCustomShapes]
    rfl
  | geospatial name shapes =>
    rw [compile, inputs, Config.error?_inShapes]
    rfl
  | constraint label name values =>
    rw [compile, Config.error?_constraintForLabel]
    rfl
  | qtext | operatorState => rfl

/-- Plans of which each has the first of the local errors of its operations have the first
of all their local errors. -/
theorem findSome?_error?_compile (config : Config) (plans : List Plan)
    (h : ∀ plan ∈ plans,
      (compile config plan).error? = plan.operations.findSome? (localError config)) :
  (plans.findSome? fun plan => (compile config plan).error?)
    = (plans.flatMap operations).findSome? (localError config)
  := by
  induction plans with
  | nil => rfl
  | cons plan plans ih =>
    rw [List.forall_mem_cons] at h
    rw [List.findSome?_cons, List.flatMap_cons, List.findSome?_append, h.1, ih h.2]
    cases plan.operations.findSome? (localError config) <;> rfl

/-- A plan has the first of the local errors of its operations. -/
theorem error?_compile (config : Config) (plan : Plan) :
  (compile config plan).error? = plan.operations.findSome? (localError config)
  := by
  induction plan using Plan.induct with
  | step plan ih =>
    rw [error?_compile_eq, operations_eq, List.findSome?_append, List.findSome?_singleton,
      findSome?_error?_compile config plan.children ih]

/-- A plan is refused exactly with the first local error among its operations, in the order
in which they are carried out, and gives a query exactly if no operation has one.  What is
said of an argument that should be strings names the field and the value. -/
theorem compile_fails_with_first_error (config : Config) (plan : Plan) :
  (∀ error, compile config plan = .error error
      ↔ plan.operations.findSome? (localError config) = some error)
    ∧ ((∃ query, compile config plan = .ok query)
      ↔ ∀ operation ∈ plan.operations, operation.localError config = none)
    ∧ ∀ field value, (BuildError.notAString field value).message
      = "invalid query plan: `" ++ field ++ "` expects strings, got " ++ value.text
  := by
  refine ⟨?_, ?_, fun _ _ => rfl⟩
  · intro error
    rw [← error?_compile, Build.error?_eq_some_iff]
  · rw [← Build.error?_eq_none_iff, error?_compile, List.findSome?_eq_none_iff]

end Plan

end StructuredQuery
