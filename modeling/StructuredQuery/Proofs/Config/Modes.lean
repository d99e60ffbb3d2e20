import StructuredQuery.Options
import StructuredQuery.Proofs.Defaults

/-!
# What each mode governs

A permissive mode refuses nothing, and what it gives is what the constructors make without a
configuration.  Constraints over shapes look at one mode, value constraints at the other, and
constraints of the remaining kinds at neither of them.
-/

namespace StructuredQuery

namespace Config

variable {config : Config}

/-! ### Constraints over shapes -/

theorem inShapes_eq_ok_iff {name : String} {inputs : List ShapeInput} {query : Query} :
  config.inShapes name inputs = .ok query
    ↔ ∃ classification, classifyIn config.shapes inputs = .ok classification
      ∧ query = .geospatialConstraint name classification.lists
  := by
  rw [inShapes, Except.bind_eq_ok_iff]
  apply exists_congr
  intro classification
  apply and_congr_right'
  exact ⟨fun h => (Except.ok.inj h).symm, fun h => congrArg Except.ok h.symm⟩

theorem inShapes_eq_error_iff {name : String} {inputs : List ShapeInput} {error : BuildError} :
  config.inShapes name inputs = .error error ↔ classifyIn config.shapes inputs = .error error
  := by
  rw [inShapes]
  cases classifyIn config.shapes inputs with
  | ok classification => exact ⟨nofun, nofun⟩
  | error cause => simp [bind, Except.bind]

/-! ### Permissive modes -/

theorem inShapes_permissive (h : config.shapes = .permissive) (name : String)
    (shapes : List ShapeInput) :
  config.inShapes name shapes = .ok (.inShapes name shapes)
  := by
  rw [inShapes, h, classifyIn_permissive]
  rfl

theorem inCustomShapes_permissive (h : config.shapes = .permissive) (name : String)
    (remark : Option Value) (shapes : List ShapeInput) :
  config.inCustomShapes name remark shapes = .ok (.inCustomShapes name remark shapes)
  := by
  rw [inCustomShapes, h, classifyIn_permissive]
  rfl

theorem hasValue_permissive (h : config.labels = .permissive) (name : String)
    (values : List Value) (weight : Option Double) :
  config.hasValue name values weight = .ok (.hasValue name (.ofValues values) weight)
  := by
  rw [hasValue, termsOf_permissive h]
  rfl

/-! ### The mode of a kind -/

/-- The mode that governs the constraints of a kind, if one does. -/
def modeOf? (config : Config) : ConstraintKind → Option Mode
  | .value => some config.labels
  | .geospatial | .customGeospatial => some config.shapes
  | .range | .word | .collection | .custom | .unspecified => none

/-- Unless the mode of a kind is strict, its constraints are made as without a configuration. -/
theorem constraint_of_modeOf? {kind : ConstraintKind} (h : config.modeOf? kind ≠ some .strict)
    (name : String) (values : List Value) :
  config.constraint kind name values = .ok (.constraint kind name values)
  := by
  have hpermissive {mode : Mode} (hmode : some mode ≠ some .strict) : mode = .permissive := by
    cases mode with
    | permissive => rfl
    | strict => exact absurd rfl hmode
  cases kind with
  | value => apply hasValue_permissive (hpermissive h)
  | geospatial => apply inShapes_permissive (hpermissive h)
  | customGeospatial => apply inCustomShapes_permissive (hpermissive h)
  | _ => rfl

/-- The constraints of a kind look at no mode but that of the kind. -/
theorem constraint_congr {other : Config} {kind : ConstraintKind}
    (h : config.modeOf? kind = other.modeOf? kind) (name : String) (values : List Value) :
  config.constraint kind name values = other.constraint kind name values
  := by
  cases kind with
  | value =>
    have hlabels : config.labels = other.labels := Option.some.inj h
    simp only [constraint, hasValue, termsOf, hlabels]
  | geospatial =>
    have hshapes : config.shapes = other.shapes := Option.some.inj h
    simp only [constraint, inShapes, hshapes]
  | customGeospatial =>
    have hshapes : config.shapes = other.shapes := Option.some.inj h
    simp only [constraint, inCustomShapes, hshapes]
  | _ => rfl

/-- An empty list has no type among the terms and shows no kind among the shapes, so that
every strict mode refuses it. -/
theorem constraint_nested_ne_ok {kind : ConstraintKind} (h : config.modeOf? kind = some .strict)
    (name : String) (query : Query) :
  config.constraint kind name [.array []] ≠ .ok query
  := by
  intro hquery
  cases kind with
  | value =>
    obtain ⟨terms, hterms, -⟩ := Except.bind_eq_ok_iff.mp hquery
    rw [termsOf, Option.some.inj h] at hterms
    cases hterms
  | geospatial | customGeospatial =>
    obtain ⟨classification, hshapes, -⟩ := Except.bind_eq_ok_iff.mp hquery
    rw [show config.shapes = .strict from Option.some.inj h] at hshapes
    cases hshapes
  | _ => cases h

/-- Configurations give the same constraints of a kind if they agree on its mode, and else one
of them refuses what the other one takes. -/
theorem constraint_eq_iff {other : Config} {kind : ConstraintKind} :
  (∀ name values, config.constraint kind name values = other.constraint kind name values)
    ↔ config.modeOf? kind = other.modeOf? kind
  := by
  refine ⟨?_, constraint_congr⟩
  intro h
  by_contra hne
  -- As the modes differ, exactly one of them is strict.
  have hmodes : config.modeOf? kind = some .strict ∧ other.modeOf? kind ≠ some .strict
      ∨ config.modeOf? kind ≠ some .strict ∧ other.modeOf? kind = some .strict := by
    cases kind with
    | value =>
      cases hmode : config.labels <;> cases hother : other.labels <;> simp_all [modeOf?]
    | geospatial | customGeospatial =>
      cases hmode : config.shapes <;> cases hother : other.shapes <;> simp_all [modeOf?]
    | _ => exact absurd rfl hne
  obtain ⟨hstrict, hother⟩ | ⟨hmode, hstrict⟩ := hmodes
  · apply constraint_nested_ne_ok hstrict ""
    rw [h, constraint_of_modeOf? hother]
  · apply constraint_nested_ne_ok hstrict ""
    rw [← h, constraint_of_modeOf? hmode]

theorem modeOf?_permissive_ne (kind : ConstraintKind) :
  permissive.modeOf? kind ≠ some .strict
  := by
  cases kind <;> simp [modeOf?, permissive]

end Config

/-- A permissive mode for shapes takes all shapes, and one for labels takes all terms and
labels; what they give is made without a look at the configuration, and so under the permissive
configuration every constraint is that of its kind, its label or the search options.  Two
configurations give the same constraints of a kind exactly if they agree on the mode of the
kind: that for shapes for the two kinds over shapes, that for labels for value constraints, and
none for the others, which are never refused. -/
theorem modes_govern_their_kinds :
  (∀ config : Config, config.shapes = .permissive → ∀ name shapes,
    config.inShapes name shapes = .ok (.inShapes name shapes)
      ∧ ∀ remark,
        config.inCustomShapes name remark shapes = .ok (.inCustomShapes name remark shapes))
  ∧ (∀ config : Config, config.labels = .permissive →
    (∀ name values weight,
      config.hasValue name values weight = .ok (.hasValue name (.ofValues values) weight))
      ∧ ∀ label, config.constraintKind label = .ok (.ofLabel label))
  ∧ (∀ name values,
    (∀ kind, Config.permissive.constraint kind name values = .ok (.constraint kind name values))
      ∧ (∀ label, Config.permissive.constraintForLabel label name values
        = .ok (.constraint (.ofLabel label) name values))
      ∧ ∀ options : Options,
        options.constraintIn .permissive name values = .ok (options.constraint name values))
  ∧ (∀ (config other : Config) kind,
    (∀ name values, config.constraint kind name values = other.constraint kind name values)
      ↔ config.modeOf? kind = other.modeOf? kind)
  ∧ ∀ (config : Config) kind, config.modeOf? kind ≠ some .strict → ∀ name values,
    config.constraint kind name values = .ok (.constraint kind name values)
  := by
  have hpermissive (kind : ConstraintKind) (name : String) (values : List Value) :
      Config.permissive.constraint kind name values = .ok (.constraint kind name values) := by
    apply Config.constraint_of_modeOf?
    apply Config.modeOf?_permissive_ne
  refine ⟨?_, ?_, ?_, fun _ _ _ => Config.constraint_eq_iff,
    fun _ _ h => Config.constraint_of_modeOf? h⟩
  · intro config h name shapes
    use Config.inShapes_permissive h name shapes
    intro remark
    apply Config.inCustomShapes_permissive h
  · intro config h
    exact ⟨Config.hasValue_permissive h, Config.constraintKind_permissive h⟩
  · intro name values
    refine ⟨fun kind => hpermissive kind name values, ?_, ?_⟩
    · intro label
      rw [Config.constraintForLabel, Config.constraintKind_permissive rfl]
      apply hpermissive
    · intro options
      apply hpermissive

/-- Strict labels do not matter to shapes, nor do strict shapes to terms. -/
theorem modes_govern_their_kinds_mixed :
  let strictLabels : Config := ⟨.permissive, .strict⟩
  let strictShapes : Config := ⟨.strict, .permissive⟩
  strictLabels.inShapes "where" [.raw .null] = .ok (.geospatialConstraint "where" .empty)
    ∧ strictShapes.hasValue "status" [] none = .ok (.hasValue "status" (.text []) none)
    ∧ strictShapes.constraintKind (some "price") = .ok .unspecified
    ∧ strictLabels.constraint .geospatial "where" [.null]
      = .ok (.geospatialConstraint "where" .empty)
  := by
  intro strictLabels strictShapes
  obtain ⟨hshapes, hlabels, -, -, hkinds⟩ := modes_govern_their_kinds
  obtain ⟨hvalue, hlabel⟩ := hlabels strictShapes rfl
  refine ⟨(hshapes strictLabels rfl "where" [.raw .null]).1, hvalue "status" [] none,
    hlabel (some "price"), ?_⟩
  apply hkinds strictLabels .geospatial
  decide

end StructuredQuery
