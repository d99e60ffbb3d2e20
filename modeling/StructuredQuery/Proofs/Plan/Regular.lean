import StructuredQuery.Proofs.Building
import StructuredQuery.Proofs.Classification
import StructuredQuery.Proofs.Defaults
import StructuredQuery.Proofs.Plan.Nodes
import StructuredQuery.Proofs.Query.Nodes
import StructuredQuery.Proofs.Value

/-!
# The queries that plans describe

A node is regular if the constructors with defaults can make it: what they fill in is
there, and terms and shapes stand where they belong.  Every compiled plan is regular at
every node, and `Query.toPlan` describes every query that is.
-/

namespace StructuredQuery

/-- A weight that is taken as it is given: neither zero nor `nan`. -/
def Double.IsWeight (weight : Double) : Prop :=
  weight.isZero = false ∧ weight.isNaN = false

theorem Double.isWeight_weightOrOne (weight : Option Double) :
  (weightOrOne weight).IsWeight
  := by
  cases weight with
  | none => exact ⟨rfl, rfl⟩
  | some weight =>
    rw [weightOrOne]
    split
    · exact ⟨rfl, rfl⟩
    · next h => simpa [IsWeight] using h

theorem Double.weightOrOne_some {weight : Double} (h : weight.IsWeight) :
  weightOrOne (some weight) = weight
  := by
  rw [weightOrOne, h.1, h.2]
  rfl

namespace Query

/-- One node is as the constructors with defaults make it. -/
def Regular : Query → Prop
  | and _ ordered => ordered = false
  | directory _ infinite => infinite = true
  | term _ weight | wordConstraint _ _ weight => weight.IsWeight
  | valueConstraint _ weight terms => weight.IsWeight ∧ terms = .ofValues terms.values
  | customGeospatialConstraint _ _ shapes | geospatialConstraint _ shapes => shapes.Sorted
  | query _ | qtext _ | or _ | not _ | boost .. | propertiesFragment _ | collection _
  | document _ | documentFragment _ | locksFragment _ | rangeConstraint ..
  | collectionConstraint .. | customConstraint .. | operatorState .. => True

/-! ### Compiled plans are regular -/

theorem everywhere_regular_leaf {query : Query} (hregular : query.Regular)
    (hleaf : query.children = []) :
  Everywhere Regular query
  := by
  apply Everywhere.intro hregular
  intro child hchild
  rw [hleaf] at hchild
  cases hchild

theorem everywhere_regular_boost {matching boosting : Query}
    (hmatching : Everywhere Regular matching) (hboosting : Everywhere Regular boosting) :
  Everywhere Regular (boost matching boosting)
  := by
  apply Everywhere.intro
  · trivial
  · intro child hchild
    simp only [children, List.mem_cons, List.not_mem_nil, or_false] at hchild
    rcases hchild with rfl | rfl
    · apply hmatching
    · apply hboosting

theorem regular_hasValue (name : String) (values : List Value) (weight : Option Double) :
  Everywhere Regular (hasValue name (.ofValues values) weight)
  := by
  apply everywhere_regular_leaf _ rfl
  use Double.isWeight_weightOrOne weight
  rw [Terms.values_ofValues]

theorem regular_inShapes (name : String) (values : List Value) :
  Everywhere Regular (inShapes name (values.map .raw))
  := by
  apply everywhere_regular_leaf _ rfl
  rw [inShapes, Regular, lists_classify]
  apply ShapeLists.sorted_ofInputs_raw

theorem regular_inCustomShapes (name : String) (remark : Option Value) (values : List Value) :
  Everywhere Regular (inCustomShapes name remark (values.map .raw))
  := by
  apply everywhere_regular_leaf _ rfl
  rw [inCustomShapes, Regular, lists_classify]
  apply ShapeLists.sorted_ofInputs_raw

theorem regular_constraint (kind : ConstraintKind) (name : String) (values : List Value) :
  Everywhere Regular (constraint kind name values)
  := by
  cases kind with
  | value => apply regular_hasValue
  | geospatial => apply regular_inShapes
  | customGeospatial => apply regular_inCustomShapes
  | word =>
    apply everywhere_regular_leaf _ rfl
    apply Double.isWeight_weightOrOne
  | range | unspecified | collection | custom =>
    apply everywhere_regular_leaf _ rfl
    trivial

end Query

namespace Plan

/-- What an operation makes of regular queries is regular. -/
theorem regular_of_children {config : Config} {plan : Plan}
    (hchildren : ∀ child ∈ plan.children, ∀ query, compile config child = .ok query →
      query.Everywhere Query.Regular)
    {query : Query} (h : compile config plan = .ok query) :
  query.Everywhere Query.Regular
  := by
  cases plan with
  | query plans | and plans | or plans =>
    rw [compile, compileList_eq, Except.map_eq_ok_iff] at h
    obtain ⟨queries, hqueries, rfl⟩ := h
    apply Query.Everywhere.intro
    · trivial
    · intro child hchild
      obtain ⟨plan, hplan, hok⟩ := Except.exists_of_mem_mapM hqueries hchild
      apply hchildren plan hplan child hok
  | not plan | propertiesFragment plan | documentFragment plan | locksFragment plan =>
    rw [compile, Except.map_eq_ok_iff] at h
    obtain ⟨child, hok, rfl⟩ := h
    apply Query.Everywhere.intro
    · trivial
    · intro other hother
      obtain rfl := List.mem_singleton.mp hother
      apply hchildren plan (List.mem_singleton.mpr rfl) other hok
  | boost matching boosting =>
    cases matching with
    | none =>
      rw [compile, Except.map_eq_ok_iff] at h
      obtain ⟨boosted, hboosted, rfl⟩ := h
      apply Query.everywhere_regular_boost
      · apply Query.everywhere_regular_leaf _ rfl
        rfl
      · apply hchildren boosting (List.mem_singleton.mpr rfl) boosted hboosted
    | some matching =>
      rw [compile, Except.bind_eq_ok_iff] at h
      obtain ⟨boosted, hboosted, h⟩ := h
      rw [bind_pure_comp, Except.map_eq_ok_iff] at h
      obtain ⟨matched, hmatched, rfl⟩ := h
      apply Query.everywhere_regular_boost
      · apply hchildren matching (by simp [children]) matched hmatched
      · apply hchildren boosting (by simp [children]) boosted hboosted
  | term | word =>
    rw [compile, bind_pure_comp, Except.map_eq_ok_iff] at h
    obtain ⟨texts, -, rfl⟩ := h
    apply Query.everywhere_regular_leaf _ rfl
    apply Double.isWeight_weightOrOne
  | range =>
    rw [compile, bind_pure_comp, Except.map_eq_ok_iff] at h
    obtain ⟨texts, -, rfl⟩ := h
    apply Query.everywhere_regular_leaf _ rfl
    trivial
  | directory | collection | document | collectionConstraint | custom =>
    rw [compile, Except.map_eq_ok_iff] at h
    obtain ⟨texts, -, rfl⟩ := h
    apply Query.everywhere_regular_leaf _ rfl
    trivial
  | value name values weight =>
    rw [compile] at h
    rw [Config.eq_hasValue_of_hasValue h]
    apply Query.regular_hasValue
  | customGeospatial name remark shapes =>
    rw [compile] at h
    rw [Config.eq_inCustomShapes_of_inCustomShapes h]
    apply Query.regular_inCustomShapes
  | geospatial name shapes =>
    rw [compile] at h
    rw [Config.eq_inShapes_of_inShapes h]
    apply Query.regular_inShapes
  | constraint label name values =>
    rw [compile, Config.constraintForLabel, Except.bind_eq_ok_iff] at h
    obtain ⟨kind, -, h⟩ := h
    rw [Config.eq_constraint_of_constraint h]
    apply Query.regular_constraint
  | qtext | operatorState =>
    cases h
    apply Query.everywhere_regular_leaf _ rfl
    trivial

theorem regular_of_compile {config : Config} (plan : Plan) {query : Query}
    (h : compile config plan = .ok query) :
  query.Everywhere Query.Regular
  := by
  induction plan using Plan.induct generalizing query with
  | step plan ih =>
    apply regular_of_children _ h
    intro child hchild query hok
    apply ih child hchild hok

end Plan

/-! ### Plans for regular queries -/

namespace Query

mutual

/-- A plan that describes a query, if the query is regular at every node. -/
def toPlan : Query → Plan
  | query children => .query (toPlans children)
  | qtext words => .qtext words
  | term text weight => .term (.array (text.map .string)) (some weight)
  | and children _ => .and (toPlans children)
  | or children => .or (toPlans children)
  | not child => .not child.toPlan
  | boost matching boosting => .boost (some matching.toPlan) boosting.toPlan
  | propertiesFragment child => .propertiesFragment child.toPlan
  | directory uris _ => .directory (.array (uris.map .string))
  | collection uris => .collection (.array (uris.map .string))
  | document uris => .document (.array (uris.map .string))
  | documentFragment child => .documentFragment child.toPlan
  | locksFragment child => .locksFragment child.toPlan
  | rangeConstraint name operator values options =>
    .range name (some operator) (.array values) (.array (options.map .string))
  | valueConstraint name weight terms => .value name (.array terms.values) (some weight)
  | wordConstraint name text weight => .word name (.array (text.map .string)) (some weight)
  | collectionConstraint name uris => .collectionConstraint name (.array (uris.map .string))
  | customConstraint name text => .custom name (.array (text.map .string))
  | customGeospatialConstraint name remark shapes =>
    .customGeospatial name remark (.array shapes.all)
  | geospatialConstraint name shapes => .geospatial name (.array shapes.all)
  | operatorState operator state => .operatorState operator state
termination_by structural query => query

/-- Plans that describe queries. -/
def toPlans : List Query → List Plan
  | [] => []
  | child :: children => child.toPlan :: toPlans children
termination_by structural children => children

end

theorem toPlans_eq (queries : List Query) :
  toPlans queries = queries.map toPlan
  := by
  induction queries with
  | nil => rfl
  | cons query queries ih => rw [toPlans, ih, List.map_cons]

end Query

namespace Plan

/-- A list of strings is an argument of strings. -/
theorem strings_array (field : String) (texts : List String) :
  strings field (.array (texts.map .string)) = .ok texts
  := by
  rw [strings, Value.given_array]
  induction texts with
  | nil => rfl
  | cons text texts ih =>
    rw [List.map_cons, List.mapM_cons, ih]
    rfl

/-- Plans that describe their queries one by one describe the list of them. -/
theorem mapM_compile_toPlan {config : Config} {queries : List Query}
    (h : ∀ query ∈ queries, compile config query.toPlan = .ok query) :
  (queries.map Query.toPlan).mapM (compile config) = .ok queries
  := by
  induction queries with
  | nil => rfl
  | cons query queries ih =>
    rw [List.forall_mem_cons] at h
    rw [List.map_cons, List.mapM_cons, h.1, ih h.2]
    rfl

/-- A regular node is described by its plan if its children are by theirs. -/
theorem compile_toPlan_of_children {query : Query} (hregular : query.Regular)
    (hchildren : ∀ child ∈ query.children,
      compile .permissive child.toPlan = .ok child) :
  compile .permissive query.toPlan = .ok query
  := by
  cases query with
  | query queries | or queries =>
    rw [Query.toPlan, compile, compileList_eq, Query.toPlans_eq,
      show (queries.map Query.toPlan).mapM _ = _ from mapM_compile_toPlan hchildren]
    rfl
  | and queries ordered =>
    cases hregular
    rw [Query.toPlan, compile, compileList_eq, Query.toPlans_eq,
      show (queries.map Query.toPlan).mapM _ = _ from mapM_compile_toPlan hchildren]
    rfl
  | not child | propertiesFragment child | documentFragment child | locksFragment child =>
    rw [Query.toPlan, compile, hchildren child (List.mem_singleton.mpr rfl)]
    rfl
  | boost matching boosting =>
    rw [Query.toPlan, compile, hchildren boosting (by simp [Query.children]),
      hchildren matching (by simp [Query.children])]
    rfl
  | term text weight | wordConstraint name text weight =>
    rw [Query.toPlan, compile, strings_array]
    simp only [Query.ofTerms, Query.hasWord, Double.weightOrOne_some hregular]
    rfl
  | directory uris infinite =>
    cases hregular
    rw [Query.toPlan, compile, strings_array]
    rfl
  | collection | document | collectionConstraint | customConstraint =>
    rw [Query.toPlan, compile, strings_array]
    rfl
  | rangeConstraint name operator values options =>
    rw [Query.toPlan, compile, strings_array, Value.elements_array]
    rfl
  | valueConstraint name weight terms =>
    rw [Query.toPlan, compile, Value.elements_array, Config.hasValue, Config.termsOf_permissive rfl,
      ← hregular.2]
    simp only [Query.hasValue, Double.weightOrOne_some hregular.1]
    rfl
  | customGeospatialConstraint name remark shapes =>
    rw [Query.toPlan, compile, inputs, Value.given_array, Config.inCustomShapes, Config.permissive,
      classifyIn_permissive]
    simp only [bind_pure_comp, Functor.map, Except.map, lists_classify,
      shapes.ofInputs_all hregular]
  | geospatialConstraint name shapes =>
    rw [Query.toPlan, compile, inputs, Value.given_array, Config.inShapes, Config.permissive,
      classifyIn_permissive]
    simp only [bind_pure_comp, Functor.map, Except.map, lists_classify,
      shapes.ofInputs_all hregular]
  | qtext | operatorState => rfl

theorem compile_toPlan {query : Query} (h : query.Everywhere Query.Regular) :
  compile .permissive query.toPlan = .ok query
  := by
  induction h with
  | intro here inside ih => apply compile_toPlan_of_children here ih

/-- Plans describe, with all defaults taken, exactly the queries that are regular at every
node. -/
theorem exists_compile_iff_regular (query : Query) :
  (∃ plan, compile .permissive plan = .ok query) ↔ query.Everywhere Query.Regular
  := by
  constructor
  · rintro ⟨plan, h⟩
    apply regular_of_compile plan h
  · intro h
    use query.toPlan
    apply compile_toPlan h

end Plan

end StructuredQuery
