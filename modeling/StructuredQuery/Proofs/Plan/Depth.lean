import StructuredQuery.Proofs.Classification
import StructuredQuery.Proofs.Defaults
import StructuredQuery.Proofs.Plan.Nodes
import StructuredQuery.Proofs.Query.Settled

/-!
# The depth of plans

`Plan.depth` counts the containers that a text of the plan has to nest.  A plan of depth `d`
describes a query of depth `2 * d + 1` at most: a boost of everything puts two containers
around what it boosts where the plan has one, and at the leaves a single value becomes a list
inside an object under a label.
-/

namespace StructuredQuery

/-! ### Arguments -/

theorem depth_encodeStrings (texts : List String) :
  (encodeStrings texts).depth = 1
  := by
  rw [encodeStrings, Json.depth, Nat.succ_inj, ← Nat.le_zero, Json.depthItems_le_iff,
    List.forall_mem_map]
  exact fun text _ => Nat.le_refl 0

theorem depth_encodeValues_le {values : List Value} {bound : ℕ}
    (h : ∀ value ∈ values, value.json.depth ≤ bound) :
  (encodeValues values).depth ≤ bound + 1
  := by
  rw [encodeValues, Json.depth, Nat.succ_le_succ_iff, Json.depthItems_le_iff, List.forall_mem_map]
  exact h

namespace Value

/-- The elements of an argument are no deeper than the argument. -/
theorem depth_le_of_mem_elements {value item : Value} (h : item ∈ value.elements) :
  item.json.depth ≤ value.json.depth
  := by
  obtain ⟨json, hcanonical⟩ := value
  cases json with
  | array items =>
    obtain ⟨source, -, rfl⟩ := List.mem_map.mp h
    apply Nat.le_succ_of_le (Json.depthItems_le_iff.mp (Nat.le_refl _) source.1 source.2)
  | _ =>
    rw [List.mem_singleton.mp h]

theorem depth_le_of_mem_given {value item : Value} (h : item ∈ value.given) :
  item.json.depth ≤ value.json.depth
  := by
  rw [given] at h
  split at h
  · cases h
  · apply depth_le_of_mem_elements h

end Value

/-- Values that are sorted as shapes are no deeper than before. -/
theorem ShapeLists.depth_ofInputs_le {values : List Value} {bound : ℕ}
    (h : ∀ value ∈ values, value.json.depth ≤ bound) :
  ∀ member ∈ (ofInputs (values.map .raw)).encodeMembers, member.2.depth ≤ bound + 1
  := by
  have hkind (kind : ShapeKind) :
      (encodeValues (ShapeInput.ofKind kind (values.map .raw))).depth ≤ bound + 1 := by
    apply depth_encodeValues_le
    intro value hvalue
    rw [ShapeInput.ofKind_raw] at hvalue
    apply h value (List.mem_filter.mp hvalue).1
  simp only [encodeMembers, ofInputs, List.forall_mem_cons]
  exact ⟨hkind .point, hkind .box, hkind .circle, hkind .polygon, by simp⟩

/-- A weight that takes the place of a finite one is finite. -/
theorem Double.isFinite_weightOrOne {weight : Option Double}
    (h : ∀ given ∈ weight, given.IsFinite) :
  (weightOrOne weight).IsFinite
  := by
  cases weight with
  | none => apply isFinite_one
  | some given =>
    rw [weightOrOne]
    split
    · apply isFinite_one
    · apply h given rfl

/-! ### Queries with defaults -/

namespace Query

variable {values : List Value} {bound : ℕ}

theorem settled_allOf {queries : List Query} (h : ∀ query ∈ queries, query.Settled bound) :
  (allOf queries).Settled (bound + 3)
  := by
  apply settled_of_list h rfl (by simp [Json.depth]) rfl rfl
  intro hstrip
  rw [allOf, strip, hstrip]

/-- A query of no parts has a depth of its own. -/
theorem settled_boostAll {boosting : Query} (h : boosting.Settled bound) (hbound : 3 ≤ bound) :
  (boostAll boosting).Settled (bound + 2)
  := settled_boost ((settled_allOf (by simp)).mono hbound) h

theorem settled_hasValue (name : String) {weight : Option Double}
    (hvalues : ∀ value ∈ values, value.json.depth ≤ bound)
    (hweight : ∀ given ∈ weight, given.IsFinite) :
  (hasValue name (.ofValues values) weight).Settled (bound + 3)
  := by
  have hterms : (Terms.ofValues values).encodeMember.2.depth ≤ bound + 1 := by
    rw [Terms.encodeMember, Terms.values_ofValues]
    apply depth_encodeValues_le hvalues
  apply settled_of_leaf rfl (Nat.succ_pos _) _ rfl _ rfl
  · simp only [List.forall_mem_cons, Json.depth_ofDouble]
    exact ⟨Nat.succ_pos _, Nat.succ_pos _, Nat.lt_succ_of_le hterms, by simp⟩
  · simpa [hasValue, weight?] using Double.isFinite_weightOrOne hweight

theorem settled_ofTerms (text : List String) {weight : Option Double}
    (hweight : ∀ given ∈ weight, given.IsFinite) :
  (ofTerms text weight).Settled 3
  := by
  apply settled_of_leaf rfl Nat.two_pos _ rfl _ rfl
  · simp [Json.depth_ofDouble, depth_encodeStrings]
  · simpa [ofTerms, weight?] using Double.isFinite_weightOrOne hweight

theorem settled_hasWord (name : String) (text : List String) {weight : Option Double}
    (hweight : ∀ given ∈ weight, given.IsFinite) :
  (hasWord name text weight).Settled 3
  := by
  apply settled_of_leaf rfl Nat.two_pos _ rfl _ rfl
  · simp [Json.depth, Json.depth_ofDouble, depth_encodeStrings]
  · simpa [hasWord, weight?] using Double.isFinite_weightOrOne hweight

theorem settled_inRange (name : String) (operator : Option RangeOperator) (options : List String)
    (hvalues : ∀ value ∈ values, value.json.depth ≤ bound) :
  (inRange name values operator options).Settled (bound + 3)
  := by
  apply settled_of_leaf rfl (Nat.succ_pos _) _ rfl (by simp [inRange, weight?]) rfl
  simp only [List.forall_mem_cons, depth_encodeStrings]
  exact ⟨Nat.succ_pos _, Nat.succ_pos _, Nat.lt_succ_of_le (depth_encodeValues_le hvalues),
    by omega, by simp⟩

theorem settled_inShapes (name : String) (hvalues : ∀ value ∈ values, value.json.depth ≤ bound) :
  (inShapes name (values.map .raw)).Settled (bound + 3)
  := by
  rw [inShapes, lists_classify]
  apply settled_of_leaf rfl (Nat.succ_pos _) _ rfl (by simp [weight?]) rfl
  rw [List.forall_mem_cons]
  use Nat.succ_pos _
  intro member hmember
  apply Nat.lt_succ_of_le (ShapeLists.depth_ofInputs_le hvalues member hmember)

theorem settled_inCustomShapes (name : String) {remark : Option Value}
    (hremark : ∀ value ∈ remark, value ≠ .null ∧ value.json.depth ≤ bound)
    (hvalues : ∀ value ∈ values, value.json.depth ≤ bound) :
  (inCustomShapes name remark (values.map .raw)).Settled (bound + 3)
  := by
  rw [inCustomShapes, lists_classify]
  apply settled_of_leaf rfl (Nat.succ_pos (bound + 1)) _ rfl (by simp [weight?])
  · rw [strip, readRemark_eq fun value hvalue => (hremark value hvalue).1]
  · simp only [List.cons_append, List.forall_mem_cons, List.forall_mem_append,
      List.forall_mem_map, Option.mem_toList]
    refine ⟨Nat.succ_pos _, fun value hvalue => ?_, fun member hmember => ?_⟩
    · have hdepth := (hremark value hvalue).2
      omega
    · apply Nat.lt_succ_of_le (ShapeLists.depth_ofInputs_le hvalues member hmember)

theorem settled_constraint (kind : ConstraintKind) (name : String)
    (hvalues : ∀ value ∈ values, value.json.depth ≤ bound) :
  (constraint kind name values).Settled (bound + 3)
  := by
  cases kind with
  | range | unspecified => apply settled_inRange name none [] hvalues
  | value => apply settled_hasValue name hvalues (by simp)
  | word => apply (settled_hasWord name _ (by simp)).mono (Nat.le_add_left 3 bound)
  | collection | custom =>
    apply Settled.mono _ (Nat.le_add_left 3 bound)
    apply settled_of_leaf rfl Nat.two_pos _ rfl (by simp [constraint, weight?]) rfl
    simp [Json.depth, depth_encodeStrings]
  | geospatial => apply settled_inShapes name hvalues
  | customGeospatial => apply settled_inCustomShapes name (by simp) hvalues

end Query

namespace Plan

mutual

/-- The number of containers that a text of the plan has to nest. -/
def depth : Plan → ℕ
  | query plans | and plans | or plans => depthList plans + 1
  | not plan | propertiesFragment plan | documentFragment plan | locksFragment plan =>
    plan.depth + 1
  | boost none boosting => boosting.depth + 1
  | boost (some matching) boosting => max matching.depth boosting.depth + 1
  | qtext words => words.encode.depth + 1
  | term argument _ | directory argument | collection argument | document argument
  | value _ argument _ | word _ argument _ | collectionConstraint _ argument
  | custom _ argument | geospatial _ argument | constraint _ _ argument =>
    argument.json.depth + 1
  | range _ _ values options => max values.json.depth options.json.depth + 1
  | customGeospatial _ none shapes => shapes.json.depth + 1
  | customGeospatial _ (some remark) shapes => max remark.json.depth shapes.json.depth + 1
  | operatorState .. => 1
termination_by structural plan => plan

/-- The number of containers that a list of the plans has to nest, if there is one. -/
def depthList : List Plan → ℕ
  | [] => 0
  | plan :: plans => max (plan.depth + 1) (depthList plans)
termination_by structural plans => plans

end

theorem depth_lt_of_mem {plans : List Plan} {plan : Plan} (h : plan ∈ plans) :
  plan.depth < depthList plans
  := by
  induction plans with
  | nil => contradiction
  | cons first plans ih =>
    rw [depthList]
    rcases List.mem_cons.mp h with rfl | h
    · apply Nat.le_max_left
    · apply Nat.lt_of_lt_of_le (ih h) (Nat.le_max_right _ _)

theorem depthList_le {plans : List Plan} {bound : ℕ} (h : ∀ plan ∈ plans, plan.depth ≤ bound) :
  depthList plans ≤ bound + 1
  := by
  induction plans with
  | nil => apply Nat.zero_le
  | cons first plans ih =>
    obtain ⟨hfirst, hrest⟩ := List.forall_mem_cons.mp h
    apply Nat.max_le.mpr ⟨Nat.succ_le_succ hfirst, ih hrest⟩

theorem depth_pos (plan : Plan) :
  0 < plan.depth
  := by
  cases plan with
  | boost matching boosting => cases matching <;> apply Nat.succ_pos
  | customGeospatial name remark shapes => cases remark <;> apply Nat.succ_pos
  | _ => apply Nat.succ_pos

/-! ### Legible plans -/

/-- The weight that an operation gives. -/
def weight? : Plan → Option Double
  | term _ weight | value _ _ weight | word _ _ weight => weight
  | _ => none

/-- The remark that an operation gives. -/
def remark? : Plan → Option Value
  | customGeospatial _ remark _ => remark
  | _ => none

/-- What an operation gives can stand in a text: weights are finite, and a remark of null is
none. -/
structure Legible (operation : Plan) : Prop where
  weight : ∀ weight ∈ operation.weight?, weight.IsFinite
  remark : ∀ remark ∈ operation.remark?, remark ≠ .null

/-- All operations of a plan are legible if the outermost is and all of those inside are. -/
theorem legible_operations_iff {plan : Plan} :
  (∀ operation ∈ plan.operations, operation.Legible)
    ↔ plan.Legible ∧ ∀ child ∈ plan.children, ∀ operation ∈ child.operations, operation.Legible
  := by
  rw [operations_eq, List.forall_mem_append, List.forall_mem_flatMap, and_comm]
  simp

/-! ### What plans describe -/

/-- An operation makes a settled query of settled queries. -/
theorem settled_of_children {config : Config} {plan : Plan} (hlegible : plan.Legible)
    (hchildren : ∀ child ∈ plan.children, ∀ query, compile config child = .ok query →
      query.Settled (2 * child.depth + 1))
    {query : Query} (h : compile config plan = .ok query) :
  query.Settled (2 * plan.depth + 1)
  := by
  cases plan with
  | query plans | and plans | or plans =>
    rw [compile, compileList_eq, Except.map_eq_ok_iff] at h
    obtain ⟨queries, hqueries, rfl⟩ := h
    have hsettled : ∀ child ∈ queries, child.Settled (2 * depthList plans - 1) := by
      intro child hchild
      obtain ⟨plan, hplan, hok⟩ := Except.exists_of_mem_mapM hqueries hchild
      have hdepth := depth_lt_of_mem hplan
      apply (hchildren plan hplan child hok).mono (by omega)
    refine (Query.settled_of_list hsettled rfl (by simp [Json.depth]) rfl rfl ?_).mono ?_
    · intro hstrip
      simp only [Query.allOf, Query.strip, hstrip]
    · simp only [depth]
      omega
  | not plan | propertiesFragment plan | documentFragment plan | locksFragment plan =>
    rw [compile, Except.map_eq_ok_iff] at h
    obtain ⟨child, hok, rfl⟩ := h
    have hchild := hchildren plan (List.mem_singleton.mpr rfl) child hok
    refine (Query.settled_of_child hchild rfl rfl rfl ?_).mono ?_
    · intro hstrip
      rw [Query.strip, hstrip]
    · simp only [depth]
      omega
  | boost matching boosting =>
    have hpos := boosting.depth_pos
    cases matching with
    | none =>
      rw [compile, Except.map_eq_ok_iff] at h
      obtain ⟨boosted, hboosted, rfl⟩ := h
      have hsettled := hchildren boosting (by simp [children]) boosted hboosted
      apply (Query.settled_boostAll hsettled (by omega)).mono
      simp only [depth]
      omega
    | some matching =>
      rw [compile, Except.bind_eq_ok_iff] at h
      obtain ⟨boosted, hboosted, h⟩ := h
      rw [bind_pure_comp, Except.map_eq_ok_iff] at h
      obtain ⟨matched, hmatched, rfl⟩ := h
      have hmatching := hchildren matching (by simp [children]) matched hmatched
      have hboosting := hchildren boosting (by simp [children]) boosted hboosted
      apply (Query.settled_boost (hmatching.mono (Nat.le_max_left _ _))
        (hboosting.mono (Nat.le_max_right _ _))).mono
      simp only [depth]
      omega
  | term text weight =>
    rw [compile, bind_pure_comp, Except.map_eq_ok_iff] at h
    obtain ⟨texts, -, rfl⟩ := h
    apply (Query.settled_ofTerms texts hlegible.weight).mono
    simp only [depth]
    omega
  | word name text weight =>
    rw [compile, bind_pure_comp, Except.map_eq_ok_iff] at h
    obtain ⟨texts, -, rfl⟩ := h
    apply (Query.settled_hasWord name texts hlegible.weight).mono
    simp only [depth]
    omega
  | directory uris | collection uris | document uris | collectionConstraint name uris
  | custom name uris =>
    rw [compile, Except.map_eq_ok_iff] at h
    obtain ⟨texts, -, rfl⟩ := h
    apply Query.Settled.mono (Query.settled_of_leaf rfl Nat.two_pos _ rfl _ rfl)
    · simp only [depth]
      omega
    · simp [Json.depth, depth_encodeStrings]
    · simp [Query.underDirectories, Query.weight?]
  | range name operator values options =>
    rw [compile, bind_pure_comp, Except.map_eq_ok_iff] at h
    obtain ⟨texts, -, rfl⟩ := h
    apply (Query.settled_inRange name operator texts
      fun value => Value.depth_le_of_mem_elements).mono
    simp only [depth]
    omega
  | value name values weight =>
    rw [compile] at h
    rw [Config.eq_hasValue_of_hasValue h]
    apply (Query.settled_hasValue name (fun value => Value.depth_le_of_mem_elements)
      hlegible.weight).mono
    simp only [depth]
    omega
  | customGeospatial name remark shapes =>
    rw [compile] at h
    rw [Config.eq_inCustomShapes_of_inCustomShapes h]
    have hdepth : (∀ value ∈ remark, value.json.depth < (customGeospatial name remark shapes).depth)
        ∧ shapes.json.depth < (customGeospatial name remark shapes).depth := by
      cases remark with
      | none => simp [depth]
      | some value =>
        simp only [depth, Option.mem_some_iff, forall_eq']
        omega
    apply (Query.settled_inCustomShapes name
      (fun value hvalue =>
        ⟨hlegible.remark value hvalue, Nat.le_sub_one_of_lt (hdepth.1 value hvalue)⟩)
      (fun value hvalue => (Value.depth_le_of_mem_given hvalue).trans
        (Nat.le_sub_one_of_lt hdepth.2))).mono
    omega
  | geospatial name shapes =>
    rw [compile] at h
    rw [Config.eq_inShapes_of_inShapes h]
    apply (Query.settled_inShapes name fun value => Value.depth_le_of_mem_given).mono
    simp only [depth]
    omega
  | constraint label name values =>
    rw [compile, Config.constraintForLabel, Except.bind_eq_ok_iff] at h
    obtain ⟨kind, -, h⟩ := h
    rw [Config.eq_constraint_of_constraint h]
    apply (Query.settled_constraint kind name fun value => Value.depth_le_of_mem_given).mono
    simp only [depth]
    omega
  | qtext words =>
    cases h
    apply (Query.settled_of_parameters rfl (Nat.le_refl words.encode.depth)
      (by simp [Query.weight?]) (by simp [Query.children]) rfl).mono
    simp only [depth]
    omega
  | operatorState =>
    cases h
    apply (Query.settled_of_leaf rfl Nat.one_pos _ rfl (by simp [Query.weight?]) rfl).mono
    · simp [depth]
    · simp [Json.depth]

theorem settled_of_compile {config : Config} (plan : Plan)
    (hlegible : ∀ operation ∈ plan.operations, operation.Legible) {query : Query}
    (h : compile config plan = .ok query) :
  query.Settled (2 * plan.depth + 1)
  := by
  induction plan using Plan.induct generalizing query with
  | step plan ih =>
    obtain ⟨hhere, hinside⟩ := legible_operations_iff.mp hlegible
    apply settled_of_children hhere _ h
    intro child hchild query hok
    apply ih child hchild (hinside child hchild) hok

end Plan

end StructuredQuery
