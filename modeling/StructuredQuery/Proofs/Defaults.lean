import StructuredQuery.Config.Constraint
import StructuredQuery.Proofs.Building

/-!
# Steps that a configuration can refuse

Three steps look at the configuration: sorting shapes, giving terms a type and finding the
kind of a label.  In permissive mode each takes its default, and in strict mode what it
gives, if anything, is the same.
-/

namespace StructuredQuery

theorem classifyIn_permissive (inputs : List ShapeInput) :
  classifyIn .permissive inputs = .ok (classify inputs)
  := rfl

/-- Shapes that are not refused are sorted as always. -/
theorem eq_classify_of_classifyIn {mode : Mode} {inputs : List ShapeInput}
    {classification : Classification} (h : classifyIn mode inputs = .ok classification) :
  classification = classify inputs
  := by
  unfold classifyIn at h
  dsimp only at h
  split at h
  · cases h
  · cases h
    rfl

namespace Terms

/-- Terms that have a type of their own are those under the key of the first of them. -/
theorem ofValues_of_strict {values : List Value} {terms : Terms}
    (h : ofValuesStrict values = .ok terms) :
  ofValues values = terms
  := by
  rw [ofValues, h]

theorem values_ofValues (values : List Value) :
  (ofValues values).values = values
  := by
  rw [ofValues, ofValuesStrict]
  cases typeOf values <;> rfl

end Terms

namespace Config

theorem termsOf_permissive {config : Config} (h : config.labels = .permissive)
    (values : List Value) :
  config.termsOf values = .ok (.ofValues values)
  := by
  rw [termsOf, h]

/-- Terms that are not refused stand under the key of the first of them. -/
theorem eq_ofValues_of_termsOf {config : Config} {values : List Value} {terms : Terms}
    (h : config.termsOf values = .ok terms) :
  terms = .ofValues values
  := by
  rw [termsOf] at h
  split at h
  · cases h
    rfl
  · cases hstrict : Terms.ofValuesStrict values with
    | error cause =>
      rw [hstrict] at h
      cases h
    | ok strictTerms =>
      rw [hstrict] at h
      cases h
      symm
      apply Terms.ofValues_of_strict hstrict

theorem constraintKind_permissive {config : Config} (h : config.labels = .permissive)
    (label : Option String) :
  config.constraintKind label = .ok (.ofLabel label)
  := by
  unfold constraintKind
  rw [h]

/-- A label that is not refused names the kind that it always names. -/
theorem eq_ofLabel_of_constraintKind {config : Config} {label : Option String}
    {kind : ConstraintKind} (h : config.constraintKind label = .ok kind) :
  kind = .ofLabel label
  := by
  unfold constraintKind at h
  split at h
  · split at h
    · next hfound =>
      cases h
      rw [ConstraintKind.ofLabel, Option.bind_some, hfound]
      rfl
    · cases h
  · cases h
    rfl

/-! ### Constraints -/

theorem eq_inShapes_of_inShapes {config : Config} {name : String} {shapes : List ShapeInput}
    {query : Query} (h : config.inShapes name shapes = .ok query) :
  query = .inShapes name shapes
  := by
  obtain ⟨classification, hshapes, hquery⟩ := Except.bind_eq_ok_iff.mp h
  cases hquery
  rw [eq_classify_of_classifyIn hshapes]
  rfl

theorem eq_inCustomShapes_of_inCustomShapes {config : Config} {name : String}
    {remark : Option Value} {shapes : List ShapeInput} {query : Query}
    (h : config.inCustomShapes name remark shapes = .ok query) :
  query = .inCustomShapes name remark shapes
  := by
  obtain ⟨classification, hshapes, hquery⟩ := Except.bind_eq_ok_iff.mp h
  cases hquery
  rw [eq_classify_of_classifyIn hshapes]
  rfl

theorem eq_hasValue_of_hasValue {config : Config} {name : String} {values : List Value}
    {weight : Option Double} {query : Query}
    (h : config.hasValue name values weight = .ok query) :
  query = .hasValue name (.ofValues values) weight
  := by
  obtain ⟨terms, hterms, hquery⟩ := Except.bind_eq_ok_iff.mp h
  cases hquery
  rw [eq_ofValues_of_termsOf hterms]

/-- Where a configuration gives a constraint, it is the one that its kind always makes. -/
theorem eq_constraint_of_constraint {config : Config} {kind : ConstraintKind} {name : String}
    {values : List Value} {query : Query} (h : config.constraint kind name values = .ok query) :
  query = .constraint kind name values
  := by
  cases kind with
  | value => apply eq_hasValue_of_hasValue h
  | geospatial => apply eq_inShapes_of_inShapes h
  | customGeospatial => apply eq_inCustomShapes_of_inCustomShapes h
  | _ =>
    cases h
    rfl

end Config

end StructuredQuery
