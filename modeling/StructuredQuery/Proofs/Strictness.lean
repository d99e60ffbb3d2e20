import StructuredQuery.Options
import StructuredQuery.Proofs.Building
import StructuredQuery.Proofs.Defaults
import StructuredQuery.Proofs.Plan.Nodes

/-!
# Strictness

Configurations are ordered by strictness, mode by mode.  A stricter configuration refuses
more, and where it gives a query the more permissive one gives the same.  This holds of
every step that looks at the configuration, and so of plans by induction over the tree.
-/

namespace StructuredQuery

/-- The permissive mode lies below the strict one. -/
instance : LE Mode := ⟨fun low high => low = .strict → high = .strict⟩

/-- Configurations are compared mode by mode. -/
instance : LE Config :=
  ⟨fun low high => low.shapes ≤ high.shapes ∧ low.labels ≤ high.labels⟩

namespace Mode

/-- Of two modes in order either both are one and the same or the lower one is
permissive. -/
theorem le_cases {low high : Mode} (h : low ≤ high) :
  low = high ∨ low = permissive
  := by
  cases low with
  | permissive => exact Or.inr rfl
  | strict => exact Or.inl (h rfl).symm

end Mode

variable {low high : Config}

/-! ### The steps that look at the configuration -/

theorem classifyIn_extends {low high : Mode} (h : low ≤ high) (inputs : List ShapeInput) :
  (classifyIn low inputs).Extends (classifyIn high inputs)
  := by
  rcases Mode.le_cases h with rfl | rfl
  · apply Build.Extends.refl
  · intro classification hhigh
    rw [eq_classify_of_classifyIn hhigh, classifyIn_permissive]

namespace Config

theorem termsOf_extends (h : low ≤ high) (values : List Value) :
  (low.termsOf values).Extends (high.termsOf values)
  := by
  rcases Mode.le_cases h.2 with heq | hlow
  · rw [termsOf, termsOf, heq]
    apply Build.Extends.refl
  · intro terms hhigh
    rw [eq_ofValues_of_termsOf hhigh, termsOf_permissive hlow]

theorem constraintKind_extends (h : low ≤ high) (label : Option String) :
  (low.constraintKind label).Extends (high.constraintKind label)
  := by
  rcases Mode.le_cases h.2 with heq | hlow
  · unfold constraintKind
    rw [heq]
    apply Build.Extends.refl
  · intro kind hhigh
    rw [eq_ofLabel_of_constraintKind hhigh, constraintKind_permissive hlow]

/-! ### Constraints -/

theorem inShapes_extends (h : low ≤ high) (name : String) (shapes : List ShapeInput) :
  (low.inShapes name shapes).Extends (high.inShapes name shapes)
  := by
  apply Build.Extends.bind
  · apply classifyIn_extends h.1
  · intro classification
    apply Build.Extends.refl

theorem inCustomShapes_extends (h : low ≤ high) (name : String) (remark : Option Value)
    (shapes : List ShapeInput) :
  (low.inCustomShapes name remark shapes).Extends (high.inCustomShapes name remark shapes)
  := by
  apply Build.Extends.bind
  · apply classifyIn_extends h.1
  · intro classification
    apply Build.Extends.refl

theorem hasValue_extends (h : low ≤ high) (name : String) (values : List Value)
    (weight : Option Double) :
  (low.hasValue name values weight).Extends (high.hasValue name values weight)
  := by
  apply Build.Extends.bind
  · apply termsOf_extends h
  · intro terms
    apply Build.Extends.refl

theorem constraint_extends (h : low ≤ high) (kind : ConstraintKind) (name : String)
    (values : List Value) :
  (low.constraint kind name values).Extends (high.constraint kind name values)
  := by
  cases kind with
  | value => apply hasValue_extends h
  | geospatial => apply inShapes_extends h
  | customGeospatial => apply inCustomShapes_extends h
  | _ => apply Build.Extends.refl

theorem constraintForLabel_extends (h : low ≤ high) (label : Option String) (name : String)
    (values : List Value) :
  (low.constraintForLabel label name values).Extends
    (high.constraintForLabel label name values)
  := by
  apply Build.Extends.bind
  · apply constraintKind_extends h
  · intro kind
    apply constraint_extends h

end Config

/-! ### Plans -/

namespace Plan

/-- One operation keeps what its children keep. -/
theorem compile_extends_of_children (h : low ≤ high) (plan : Plan)
    (hchildren : ∀ child ∈ plan.children,
      (compile low child).Extends (compile high child)) :
  (compile low plan).Extends (compile high plan)
  := by
  cases plan with
  | query plans | and plans | or plans =>
    simp only [compile, compileList_eq]
    apply Build.Extends.map
    apply Build.Extends.mapM hchildren
  | not plan | propertiesFragment plan | documentFragment plan | locksFragment plan =>
    simp only [compile]
    apply Build.Extends.map
    apply hchildren plan (List.mem_singleton.mpr rfl)
  | boost matching boosting =>
    cases matching with
    | none =>
      simp only [compile]
      apply Build.Extends.map
      apply hchildren boosting (List.mem_singleton.mpr rfl)
    | some matching =>
      simp only [compile]
      apply Build.Extends.bind
      · apply hchildren boosting List.mem_cons_self
      · intro value
        apply Build.Extends.bind
        · apply hchildren matching (List.mem_cons_of_mem boosting List.mem_cons_self)
        · intro other
          apply Build.Extends.refl
  | value name values weight =>
    simp only [compile]
    apply Config.hasValue_extends h
  | customGeospatial name remark shapes =>
    simp only [compile]
    apply Config.inCustomShapes_extends h
  | geospatial name shapes =>
    simp only [compile]
    apply Config.inShapes_extends h
  | constraint kind name values =>
    simp only [compile]
    apply Config.constraintForLabel_extends h
  | _ =>
    simp only [compile]
    apply Build.Extends.refl

theorem compile_extends (h : low ≤ high) (plan : Plan) :
  (compile low plan).Extends (compile high plan)
  := by
  induction plan using Plan.induct with
  | step plan ih => apply compile_extends_of_children h plan ih

end Plan

/-! ### Strictness only refuses -/

/-- Whatever a configuration gives, every more permissive one gives too: plans, constraints
of a kind, over terms, over shapes, of a label, and of search options. -/
theorem strictness_only_refuses (h : low ≤ high) :
  (∀ plan : Plan, (plan.compile low).Extends (plan.compile high))
    ∧ (∀ kind name values,
      (low.constraint kind name values).Extends (high.constraint kind name values))
    ∧ (∀ name values weight,
      (low.hasValue name values weight).Extends (high.hasValue name values weight))
    ∧ (∀ name shapes, (low.inShapes name shapes).Extends (high.inShapes name shapes))
    ∧ (∀ name remark shapes,
      (low.inCustomShapes name remark shapes).Extends (high.inCustomShapes name remark shapes))
    ∧ (∀ label name values,
      (low.constraintForLabel label name values).Extends
        (high.constraintForLabel label name values))
    ∧ ∀ (options : Options) name values,
      (options.constraintIn low name values).Extends (options.constraintIn high name values)
  := by
  refine ⟨Plan.compile_extends h, Config.constraint_extends h, Config.hasValue_extends h,
    Config.inShapes_extends h, Config.inCustomShapes_extends h,
    Config.constraintForLabel_extends h, ?_⟩
  intro options name values
  apply Config.constraint_extends h

/-- A plan that is strict enough about its labels, its terms and its shapes, so that the
permissive configuration gives the same query. -/
theorem strictness_only_refuses_boost :
  Config.permissive ≤ Config.strict
    ∧ Plan.compile .permissive
        (.boost
          (some (.constraint (some "geospatial") "where"
            (.object [("latitude", .number (.integer 1 (by decide)))])))
          (.value "status" (.string "new") none))
      = .ok (.boost
          (.inShapes "where" [.raw (.object [("latitude", .number (.integer 1 (by decide)))])])
          (.hasValue "status" (.text ["new"]) none))
  := by
  have h : Config.permissive ≤ Config.strict := ⟨fun _ => rfl, fun _ => rfl⟩
  use h
  apply (strictness_only_refuses h).1
  rfl

end StructuredQuery
