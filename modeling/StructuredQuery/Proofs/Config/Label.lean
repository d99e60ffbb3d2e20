import StructuredQuery.Command
import StructuredQuery.Proofs.Json.Document
import StructuredQuery.Proofs.Plan.Failure
import StructuredQuery.Proofs.Value

/-!
# Constraints by label

A constraint whose kind is chosen by a label is made on four ways: by the command, by an
operation of a plan, by looking up the kind and then making the constraint, and by search
options, which show a kind for a name.  All of them give the same query or the same error, as
every kind is found again under its label.
-/

namespace StructuredQuery

namespace ConstraintKind

/-- A kind is found under its label. -/
theorem ofLabel?_of_label? {kind : ConstraintKind} {label : String}
    (h : kind.label? = some label) :
  ofLabel? label = some kind
  := by
  cases kind with
  | unspecified => cases h
  | _ =>
    cases h
    decide

end ConstraintKind

namespace Config

/-- The label of a kind names it in either mode, and so does no label the kind that has none. -/
theorem constraintKind_label? (config : Config) (kind : ConstraintKind) :
  config.constraintKind kind.label? = .ok kind
  := by
  unfold constraintKind
  cases hlabel : kind.label? with
  | none =>
    cases kind with
    | unspecified => cases config.labels <;> rfl
    | _ => cases hlabel
  | some label =>
    have hkind := ConstraintKind.ofLabel?_of_label? hlabel
    cases config.labels with
    | permissive => simp [ConstraintKind.ofLabel, hkind]
    | strict => simp [hkind]

theorem constraintForLabel_label? (config : Config) (kind : ConstraintKind) (name : String)
    (values : List Value) :
  config.constraintForLabel kind.label? name values = config.constraint kind name values
  := by
  rw [constraintForLabel, constraintKind_label?]
  rfl

/-- A constraint of a known kind is never refused for its label. -/
theorem constraint_ne_unknownConstraintKind (config : Config) (kind : ConstraintKind)
    (name : String) (values : List Value) (label : String) :
  config.constraint kind name values ≠ .error (.unknownConstraintKind label)
  := by
  rw [ne_eq, ← Build.error?_eq_some_iff, error?_constraint]
  cases kind with
  | value =>
    simp only [kindError, termsError]
    split
    · simp
    · simp
    · split <;> simp
  | geospatial | customGeospatial =>
    simp only [kindError, shapesError]
    split
    · simp
    · simp
  | _ => simp [kindError]

end Config

namespace Options

/-- The label of the kind that the first definition of a name shows, if there is a definition
and it shows a kind. -/
def labelOf (options : Options) (name : String) : Option String :=
  (options.definitions.find? (·.name = name)).bind fun definition => definition.kind.label?

theorem label?_kindOf (options : Options) (name : String) :
  (options.kindOf name).label? = options.labelOf name
  := by
  rw [kindOf, labelOf, find?]
  cases options.definitions.find? (·.name = name) <;> rfl

/-- Search options make the constraint of the label that they show for the name. -/
theorem constraintIn_eq (options : Options) (config : Config) (name : String)
    (values : List Value) :
  options.constraintIn config name values
    = config.constraintForLabel (options.labelOf name) name values
  := by
  rw [constraintIn, ← label?_kindOf, Config.constraintForLabel_label?]

end Options

/-- For every label the command, the operation of a plan and the constraint of the label are one
and the same, and so is what search options make of a name, with the label of the kind that they
show for it or with none.  So a name that is not defined is never refused for its label. -/
theorem constraintForLabel_of_all_ways (config : Config) (name : String)
    (arguments : List String) :
  let values := arguments.map Value.ofArgument
  (∀ (label : Option String) (sources : Sources),
    (Request.constraint label name arguments).query sources config
        = (config.constraintForLabel label name values).mapError .ofError
      ∧ Plan.compile config (.constraint label name (.array values))
        = config.constraintForLabel label name values)
  ∧ ∀ options : Options,
    options.constraintIn config name values
        = config.constraintForLabel (options.labelOf name) name values
      ∧ (∀ {sources : Sources} {file text : String}, sources.file file = .ok text →
        Options.ofText text = .ok options →
          (Request.options file name arguments).query sources config
            = (config.constraintForLabel (options.labelOf name) name values).mapError .ofError)
      ∧ ∀ label, options.constraintIn config name values ≠ .error (.unknownConstraintKind label)
  := by
  intro values
  constructor
  · intro label sources
    use rfl
    rw [Plan.compile, Value.given_array]
  · intro options
    refine ⟨options.constraintIn_eq config name values, ?_, ?_⟩
    · intro sources file text hfile hoptions
      rw [← options.constraintIn_eq, Request.query, hfile]
      simp only [Except.mapError, bind, Except.bind, hoptions]
      rfl
    · apply config.constraint_ne_unknownConstraintKind

/-- Of two definitions of one name the first decides. -/
theorem constraintForLabel_of_all_ways_twice :
  let text := (Json.object [("constraint", .array [
    .object [("name", .string "status"), ("value", .object [])],
    .object [("name", .string "status"), ("word", .object [])]])]).compact
  let options : Options := ⟨[
    ⟨"status", .object [("value", .object [])]⟩, ⟨"status", .object [("word", .object [])]⟩]⟩
  let sources : Sources := ⟨fun _ => .ok text, .error .notFound, none⟩
  Options.ofText text = .ok options ∧ options.labelOf "status" = some "value"
    ∧ (Request.options "options.json" "status" ["true"]).query sources .strict
      = .ok (.hasValue "status" (.boolean [true]) none)
  := by
  intro text options sources
  have hoptions : Options.ofText text = .ok options := by
    rw [Options.ofText, Value.ofText, Document.ofText_compact]
    rfl
  have hfile : sources.file "options.json" = .ok text := by rfl
  have hquery := ((constraintForLabel_of_all_ways .strict "status" ["true"]).2 options).2.1
    hfile hoptions
  refine ⟨hoptions, by rfl, ?_⟩
  rw [hquery]
  rfl

end StructuredQuery
