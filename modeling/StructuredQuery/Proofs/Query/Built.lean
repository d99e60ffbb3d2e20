import StructuredQuery.Options
import StructuredQuery.Proofs.Query.Grammar

/-!
# Built queries

A query can be built by nesting the calls of constructors, the constraints that are chosen by
kind, by label or by search options, and compiled plans.  Every node of such a query is written
by the grammar.
-/

namespace StructuredQuery

namespace Query

/-- The query is what a call makes to which the weight and the remark are given, if they are.
A call that takes none is given none. -/
inductive Call : Option Double → Option Value → Query → Prop where
  | query (queries : List Query) : Call none none (.query queries)
  | qtext (words : Words) : Call none none (.qtext words)
  | ofTerms (text : List String) (weight : Option Double) : Call weight none (.ofTerms text weight)
  | allOf (queries : List Query) : Call none none (.allOf queries)
  | or (queries : List Query) : Call none none (.or queries)
  | not (query : Query) : Call none none (.not query)
  | boost (matching boosting : Query) : Call none none (.boost matching boosting)
  | boostAll (boosting : Query) : Call none none (.boostAll boosting)
  | propertiesFragment (query : Query) : Call none none (.propertiesFragment query)
  | underDirectories (uris : List String) : Call none none (.underDirectories uris)
  | collection (uris : List String) : Call none none (.collection uris)
  | document (uris : List String) : Call none none (.document uris)
  | documentFragment (query : Query) : Call none none (.documentFragment query)
  | locksFragment (query : Query) : Call none none (.locksFragment query)
  | inRange (name : String) (values : List Value) (operator : Option RangeOperator)
      (options : List String) : Call none none (.inRange name values operator options)
  | hasValue (name : String) (terms : Terms) (weight : Option Double) :
      Call weight none (.hasValue name terms weight)
  | hasWord (name : String) (text : List String) (weight : Option Double) :
      Call weight none (.hasWord name text weight)
  | collectionConstraint (name : String) (uris : List String) :
      Call none none (.collectionConstraint name uris)
  | customConstraint (name : String) (text : List String) :
      Call none none (.customConstraint name text)
  | inCustomShapes (name : String) (remark : Option Value) (shapes : List ShapeInput) :
      Call none remark (.inCustomShapes name remark shapes)
  | inShapes (name : String) (shapes : List ShapeInput) : Call none none (.inShapes name shapes)
  | operatorState (operator state : String) : Call none none (.operatorState operator state)
  /-- A constraint of a kind. -/
  | constraint (kind : ConstraintKind) (name : String) (values : List Value) :
      Call none none (.constraint kind name values)
  /-- A constraint that search options define. -/
  | defined (options : Options) (name : String) (values : List Value) :
      Call none none (options.constraint name values)
  /-- A value constraint over untyped terms, under a configuration. -/
  | hasValueIn {config : Config} {name : String} {values : List Value} {weight : Option Double}
      {query : Query} (h : config.hasValue name values weight = .ok query) :
      Call weight none query
  /-- A custom constraint over shapes, under a configuration. -/
  | inCustomShapesIn {config : Config} {name : String} {remark : Option Value}
      {shapes : List ShapeInput} {query : Query}
      (h : config.inCustomShapes name remark shapes = .ok query) : Call none remark query
  /-- A geospatial constraint, under a configuration. -/
  | inShapesIn {config : Config} {name : String} {shapes : List ShapeInput} {query : Query}
      (h : config.inShapes name shapes = .ok query) : Call none none query
  /-- A constraint of a kind, under a configuration. -/
  | constraintIn {config : Config} {kind : ConstraintKind} {name : String} {values : List Value}
      {query : Query} (h : config.constraint kind name values = .ok query) : Call none none query
  /-- A constraint of the kind with a label, under a configuration. -/
  | constraintForLabel {config : Config} {label : Option String} {name : String}
      {values : List Value} {query : Query}
      (h : config.constraintForLabel label name values = .ok query) : Call none none query
  /-- A constraint that search options define, under a configuration. -/
  | definedIn {options : Options} {config : Config} {name : String} {values : List Value}
      {query : Query} (h : options.constraintIn config name values = .ok query) :
      Call none none query
  /-- The outermost operation of a plan. -/
  | compile {config : Config} {plan : Plan} {query : Query}
      (h : plan.compile config = .ok query) : Call plan.weight? plan.remark? query

/-- The query is built by calls, one inside the other, and from compiled plans. -/
inductive Built : Query → Prop where
  | call {weight : Option Double} {remark : Option Value} {query : Query}
      (h : Call weight remark query) (hinside : ∀ child ∈ query.children, Built child) :
      Built query
  | compile {config : Config} {plan : Plan} {query : Query} (h : plan.compile config = .ok query) :
      Built query

theorem built_boostAll {boosting : Query} (h : Built boosting) :
  Built (.boostAll boosting)
  := by
  apply Built.call (.boostAll boosting)
  intro child hchild
  rcases List.mem_pair.mp hchild with rfl | rfl
  · exact .call (.allOf []) (List.forall_mem_nil _)
  · exact h

/-! ### Calls fill in the parts of a node -/

theorem filledIn_constraint (kind : ConstraintKind) (name : String) (values : List Value) :
  (constraint kind name values).FilledIn none none ∧ (constraint kind name values).children = []
  := by
  cases kind <;> exact ⟨⟨rfl, rfl⟩, rfl⟩

end Query

namespace Plan

variable {config : Config}

/-- An operation fills in the parts of its node.  The children of the node are what the inner
plans are compiled to, but for the query of all that a boost of everything has to match. -/
theorem filledIn_of_compile {plan : Plan} {query : Query} (h : compile config plan = .ok query) :
  query.FilledIn plan.weight? plan.remark?
    ∧ ∀ child ∈ query.children,
      child = .allOf [] ∨ ∃ inner ∈ plan.children, compile config inner = .ok child
  := by
  cases plan with
  | query plans | or plans =>
    rw [compile, compileList_eq, Except.map_eq_ok_iff] at h
    obtain ⟨queries, hqueries, rfl⟩ := h
    exact ⟨⟨rfl, rfl⟩, fun child hchild => Or.inr (Except.exists_of_mem_mapM hqueries hchild)⟩
  | and plans =>
    rw [compile, compileList_eq, Except.map_eq_ok_iff] at h
    obtain ⟨queries, hqueries, rfl⟩ := h
    exact ⟨⟨rfl, rfl, rfl⟩, fun child hchild => Or.inr (Except.exists_of_mem_mapM hqueries hchild)⟩
  | not plan | propertiesFragment plan | documentFragment plan | locksFragment plan =>
    rw [compile, Except.map_eq_ok_iff] at h
    obtain ⟨inner, hinner, rfl⟩ := h
    use ⟨rfl, rfl⟩
    intro child hchild
    obtain rfl := List.mem_singleton.mp hchild
    exact Or.inr ⟨plan, List.mem_singleton_self plan, hinner⟩
  | boost matching boosting =>
    cases matching with
    | none =>
      rw [compile, Except.map_eq_ok_iff] at h
      obtain ⟨boosted, hboosted, rfl⟩ := h
      use ⟨rfl, rfl⟩
      intro child hchild
      rcases List.mem_pair.mp hchild with rfl | rfl
      · exact Or.inl rfl
      · exact Or.inr ⟨boosting, List.mem_singleton_self boosting, hboosted⟩
    | some matching =>
      rw [compile, Except.bind_eq_ok_iff] at h
      obtain ⟨boosted, hboosted, h⟩ := h
      rw [bind_pure_comp, Except.map_eq_ok_iff] at h
      obtain ⟨matched, hmatched, rfl⟩ := h
      use ⟨rfl, rfl⟩
      intro child hchild
      rcases List.mem_pair.mp hchild with rfl | rfl
      · exact Or.inr ⟨matching, List.mem_pair.mpr (Or.inr rfl), hmatched⟩
      · exact Or.inr ⟨boosting, List.mem_pair.mpr (Or.inl rfl), hboosted⟩
  | term | word | range =>
    rw [compile, bind_pure_comp, Except.map_eq_ok_iff] at h
    obtain ⟨texts, -, rfl⟩ := h
    exact ⟨⟨rfl, rfl⟩, List.forall_mem_nil _⟩
  | directory =>
    rw [compile, Except.map_eq_ok_iff] at h
    obtain ⟨texts, -, rfl⟩ := h
    exact ⟨⟨rfl, rfl, rfl⟩, List.forall_mem_nil _⟩
  | collection | document | collectionConstraint | custom =>
    rw [compile, Except.map_eq_ok_iff] at h
    obtain ⟨texts, -, rfl⟩ := h
    exact ⟨⟨rfl, rfl⟩, List.forall_mem_nil _⟩
  | value name values weight =>
    rw [compile] at h
    rw [Config.eq_hasValue_of_hasValue h]
    exact ⟨⟨rfl, rfl⟩, List.forall_mem_nil _⟩
  | customGeospatial name remark shapes =>
    rw [compile] at h
    rw [Config.eq_inCustomShapes_of_inCustomShapes h]
    exact ⟨⟨rfl, rfl⟩, List.forall_mem_nil _⟩
  | geospatial name shapes =>
    rw [compile] at h
    rw [Config.eq_inShapes_of_inShapes h]
    exact ⟨⟨rfl, rfl⟩, List.forall_mem_nil _⟩
  | constraint label name values =>
    rw [compile, Config.constraintForLabel, Except.bind_eq_ok_iff] at h
    obtain ⟨kind, -, h⟩ := h
    rw [Config.eq_constraint_of_constraint h]
    obtain ⟨hfilled, hleaf⟩ := Query.filledIn_constraint kind name values.given
    use hfilled
    rw [hleaf]
    exact List.forall_mem_nil _
  | qtext | operatorState =>
    cases h
    exact ⟨⟨rfl, rfl⟩, List.forall_mem_nil _⟩

end Plan

namespace Query

/-- Whatever the call is, it fills in the parts of the node from what it is given. -/
theorem Call.filledIn {weight : Option Double} {remark : Option Value} {query : Query}
    (h : Call weight remark query) :
  query.FilledIn weight remark
  := by
  cases h with
  | allOf | underDirectories => exact ⟨rfl, rfl, rfl⟩
  | constraint kind name values => exact (filledIn_constraint kind name values).1
  | defined options name values => exact (filledIn_constraint _ name values).1
  | hasValueIn h =>
    rw [Config.eq_hasValue_of_hasValue h]
    exact ⟨rfl, rfl⟩
  | inCustomShapesIn h =>
    rw [Config.eq_inCustomShapes_of_inCustomShapes h]
    exact ⟨rfl, rfl⟩
  | inShapesIn h =>
    rw [Config.eq_inShapes_of_inShapes h]
    exact ⟨rfl, rfl⟩
  | constraintIn h | definedIn h =>
    rw [Config.eq_constraint_of_constraint h]
    exact (filledIn_constraint _ _ _).1
  | constraintForLabel h =>
    obtain ⟨kind, -, h⟩ := Except.bind_eq_ok_iff.mp h
    rw [Config.eq_constraint_of_constraint h]
    exact (filledIn_constraint _ _ _).1
  | compile h => exact (Plan.filledIn_of_compile h).1
  | _ => exact ⟨rfl, rfl⟩

/-! ### Every node is made by a call -/

theorem everywhere_call_of_compile {config : Config} (plan : Plan) {query : Query}
    (h : plan.compile config = .ok query) :
  query.Everywhere fun node => ∃ weight remark, Call weight remark node
  := by
  induction plan using Plan.induct generalizing query with
  | step plan ih =>
    apply Everywhere.intro
    · exact ⟨_, _, .compile h⟩
    · intro child hchild
      rcases (Plan.filledIn_of_compile h).2 child hchild with rfl | ⟨inner, hinner, hcompile⟩
      · apply Everywhere.intro
        · exact ⟨_, _, .allOf []⟩
        · exact List.forall_mem_nil _
      · exact ih inner hinner hcompile

theorem Built.everywhere_call {query : Query} (h : Built query) :
  query.Everywhere fun node => ∃ weight remark, Call weight remark node
  := by
  induction h with
  | call h _ ih => exact .intro ⟨_, _, h⟩ ih
  | compile h => exact everywhere_call_of_compile _ h

/-- Every node of a built query is made by a call, and whatever call it is, the node is written
under its name and by the grammar, with the weight and the remark that the call was given. -/
theorem Built.everywhere_grammatical {query : Query} (h : Built query) :
  query.Everywhere fun node => (∃ weight remark, Call weight remark node)
    ∧ ∀ weight remark, Call weight remark node → node.Grammatical weight remark
  := by
  apply h.everywhere_call.imp
  intro node here
  use here
  intro weight remark hcall
  exact grammatical_of_filledIn hcall.filledIn

/-- A compiled plan beside a constraint of a kind, in a boost of everything. -/
theorem everywhere_grammatical_boostAll :
  let plan : Plan := .or [.term (.string "a") (some (.infinite true)),
    .customGeospatial "here" (some .null) .null]
  let term : Query := .ofTerms ["a"] (some (.infinite true))
  let shapes : Query := .inCustomShapes "here" (some .null) []
  let title : Query := .constraint .word "title" [.bool true]
  plan.compile .strict = .ok (.or [term, shapes])
    ∧ Built (.boostAll (.allOf [.or [term, shapes], title]))
    ∧ term.encode.parameter? "weight" = some .null
    ∧ shapes.encode.parameter? "annotation" = some .null
    ∧ title.tag.Produces [] title.encode
  := by
  intro plan term shapes title
  have hplan : plan.compile .strict = .ok (.or [term, shapes]) := by rfl
  have hbuilt : Built (.boostAll (.allOf [.or [term, shapes], title])) := by
    apply built_boostAll
    apply Built.call (.allOf _)
    intro child hchild
    rcases List.mem_pair.mp hchild with rfl | rfl
    · exact .compile hplan
    · exact .call (.constraint .word "title" [.bool true]) (List.forall_mem_nil _)
  have hnodes := hbuilt.everywhere_grammatical
  have hall := (everywhere_iff.mp hnodes).2 _ (List.mem_pair.mpr (Or.inr rfl))
  have hplanned := (everywhere_iff.mp hall).2 _ List.mem_cons_self
  have hterm := ((everywhere_iff.mp hplanned).2 term List.mem_cons_self)
  have hshapes := ((everywhere_iff.mp hplanned).2 shapes (List.mem_pair.mpr (Or.inr rfl)))
  have htitle := (everywhere_iff.mp hall).2 title (List.mem_pair.mpr (Or.inr rfl))
  refine ⟨hplan, hbuilt, ?_, ?_, ?_⟩
  · have hgrammatical := (everywhere_iff.mp hterm).1.2 _ _ (.ofTerms ["a"] _)
    exact hgrammatical.weight.mpr ⟨true, rfl⟩
  · have hgrammatical := (everywhere_iff.mp hshapes).1.2 _ _ (.inCustomShapes "here" _ [])
    exact hgrammatical.remark
  · have hgrammatical := (everywhere_iff.mp htitle).1.2 _ _ (.constraint .word "title" [.bool true])
    exact hgrammatical.produces

end Query

end StructuredQuery
