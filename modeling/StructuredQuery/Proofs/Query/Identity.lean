import StructuredQuery.Proofs.Query.RoundTrip

/-!
# The wire text identifies a query

Two queries whose weights are finite have the same text only if they are the same query.
Unlike reading back, this has no limit on the depth: the text of a tree determines its
tokens and these the tree, however deep, and the tree on the wire determines the query.
-/

namespace StructuredQuery

namespace Json

theorem compact_injective {a b : Json} (h : a.compact = b.compact) :
  a = b
  := by
  have hdocument := congrArg Document.ofText h
  rw [Document.ofText_compact, Document.ofText_compact, Document.mk.injEq] at hdocument
  apply Doc.ofJson_injective hdocument.1

/-- Finite doubles are numbers on the wire, and numbers are told apart. -/
theorem eq_of_ofDouble_eq {x y : Double} (hx : x.IsFinite) (hy : y.IsFinite)
    (h : ofDouble x = ofDouble y) :
  x = y
  := by
  rw [ofDouble, ofDouble, dif_pos hx, dif_pos hy] at h
  exact (Number.float.inj (number.inj h))

end Json

/-! ### Parameters -/

theorem encodeStrings_injective {texts others : List String}
    (h : encodeStrings texts = encodeStrings others) :
  texts = others
  := by
  apply List.map_injective_iff.mpr _ (Json.array.inj h)
  intro text other
  apply Json.string.inj

theorem encodeValues_injective {values others : List Value}
    (h : encodeValues values = encodeValues others) :
  values = others
  := by
  apply List.map_injective_iff.mpr _ (Json.array.inj h)
  intro value other
  apply Value.ext_json

theorem Words.encode_injective {words others : Words} (h : words.encode = others.encode) :
  words = others
  := by
  have hwords := ofTree?_encode words
  rw [h, ofTree?_encode] at hwords
  exact (Option.some.inj hwords).symm

theorem RangeOperator.label_injective {operator other : RangeOperator}
    (h : operator.label = other.label) :
  operator = other
  := by
  revert h
  cases operator <;> cases other <;> decide

theorem Terms.encodeMember_injective {terms others : Terms}
    (h : terms.encodeMember = others.encodeMember) :
  terms = others
  := by
  have hkey := ofKey?_key terms.type
  rw [encodeMember, encodeMember, Prod.mk.injEq] at h
  rw [h.1, ofKey?_key, Option.some.injEq] at hkey
  have hvalues : terms.values = others.values := encodeValues_injective h.2
  cases terms
  cases others
  simp_all

theorem ShapeLists.encodeMembers_injective {shapes others : ShapeLists}
    (h : shapes.encodeMembers = others.encodeMembers) :
  shapes = others
  := by
  simp only [encodeMembers, List.cons.injEq, Prod.mk.injEq, true_and, and_true] at h
  obtain ⟨hpoints, hboxes, hcircles, hpolygons⟩ := h
  cases shapes
  cases others
  rw [mk.injEq]
  exact ⟨encodeValues_injective hpoints, encodeValues_injective hboxes,
    encodeValues_injective hcircles, encodeValues_injective hpolygons⟩

namespace Query

/-! ### Queries -/

/-- The parameters of a production are read off its form on the wire. -/
theorem wrap_eq_iff (tag : Tag) {parameters others : Json} :
  tag.wrap parameters = tag.wrap others ↔ parameters = others
  := by
  simp [Tag.wrap]

/-- The production of a query is read off its form on the wire. -/
theorem tag_eq_of_encode_eq {query other : Query} (h : query.encode = other.encode) :
  query.tag = other.tag
  := by
  obtain ⟨parameters, hparameters⟩ := exists_encode_eq query
  obtain ⟨others, hothers⟩ := exists_encode_eq other
  rw [hparameters, hothers, Tag.wrap, Tag.wrap] at h
  simp only [Json.object.injEq, List.cons.injEq, Prod.mk.injEq] at h
  have htag := ofLabel?_label query.tag
  rw [h.1.1, ofLabel?_label] at htag
  exact (Option.some.inj htag).symm

/-- Lists of queries are told apart if their items are. -/
theorem eq_of_encodeList_eq {children others : List Query}
    (hchildren : ∀ child ∈ children, ∀ other ∈ others, child.encode = other.encode →
      child = other)
    (h : encodeList children = encodeList others) :
  children = others
  := by
  induction children generalizing others with
  | nil =>
    cases others with
    | nil => rfl
    | cons other others => cases h
  | cons child children ih =>
    cases others with
    | nil => cases h
    | cons other others =>
      rw [encodeList, encodeList, List.cons.injEq] at h
      rw [hchildren child List.mem_cons_self other List.mem_cons_self h.1, ih _ h.2]
      intro child hchild other hother
      apply hchildren child (List.mem_cons_of_mem _ hchild) other (List.mem_cons_of_mem _ hother)

/-- A custom constraint over terms holds fewer parameters than one over shapes. -/
theorem encodeCustomTerms_ne (name : String) (text : List String) (name' : String)
    (remark : Option Value) (shapes : ShapeLists) :
  encodeCustomTerms name text ≠ encodeCustomGeospatial name' remark shapes
  := by
  intro h
  have hlength := congrArg List.length (Json.object.inj h)
  simp [ShapeLists.encodeMembers] at hlength

theorem encodeCustomGeospatial_injective {name name' : String} {remark remark' : Option Value}
    {shapes shapes' : ShapeLists}
    (h : encodeCustomGeospatial name remark shapes = encodeCustomGeospatial name' remark' shapes') :
  name = name' ∧ remark = remark' ∧ shapes = shapes'
  := by
  have hmembers := Json.object.inj h
  rw [List.cons_append, List.cons_append, List.cons.injEq, Prod.mk.injEq] at hmembers
  obtain ⟨⟨-, hname⟩, hrest⟩ := hmembers
  -- The lists of shapes are four members, whatever stands before them.
  obtain ⟨hremark, hshapes⟩ := List.append_inj' hrest rfl
  refine ⟨Json.string.inj hname, ?_, ShapeLists.encodeMembers_injective hshapes⟩
  cases remark with
  | none =>
    cases remark' with
    | none => rfl
    | some value' => cases hremark
  | some value =>
    cases remark' with
    | none => cases hremark
    | some value' =>
      simp only [Option.toList_some, List.map_cons, List.map_nil, List.cons.injEq, Prod.mk.injEq,
        true_and, and_true] at hremark
      rw [Value.ext_json hremark]

/-- Queries are told apart by their form on the wire if their children are. -/
theorem eq_of_encode_eq_of_children {query other : Query}
    (hchildren : ∀ child ∈ query.children, ∀ child' ∈ other.children,
      child.encode = child'.encode → child = child')
    (hquery : ∀ weight ∈ query.weight?, weight.IsFinite)
    (hother : ∀ weight ∈ other.weight?, weight.IsFinite)
    (h : query.encode = other.encode) :
  query = other
  := by
  have htag := tag_eq_of_encode_eq h
  -- Only a query of the same production is left in each case.
  cases query with
  | query queries | or queries =>
    cases other <;> cases htag
    next queries' =>
    simp only [encode, wrap_eq_iff, Json.object.injEq, List.cons.injEq, Prod.mk.injEq, true_and,
      and_true, Json.array.injEq] at h
    have hqueries : queries = queries' := eq_of_encodeList_eq hchildren h
    rw [hqueries]
  | and queries ordered =>
    cases other <;> cases htag
    next queries' ordered' =>
    simp only [encode, wrap_eq_iff, Json.object.injEq, List.cons.injEq, Prod.mk.injEq, true_and,
      and_true, Json.array.injEq, Json.bool.injEq] at h
    have hqueries : queries = queries' := eq_of_encodeList_eq hchildren h.1
    rw [hqueries, h.2]
  | not child | propertiesFragment child | documentFragment child | locksFragment child =>
    cases other <;> cases htag
    next child' =>
    rw [encode, encode, wrap_eq_iff] at h
    rw [hchildren child List.mem_cons_self child' List.mem_cons_self h]
  | boost matching boosting =>
    cases other <;> cases htag
    next matching' boosting' =>
    simp only [encode, wrap_eq_iff, Json.object.injEq, List.cons.injEq, Prod.mk.injEq, true_and,
      and_true] at h
    rw [hchildren matching (by simp [children]) matching' (by simp [children]) h.1,
      hchildren boosting (by simp [children]) boosting' (by simp [children]) h.2]
  | qtext words =>
    cases other <;> cases htag
    next words' =>
    rw [encode, encode, wrap_eq_iff] at h
    rw [Words.encode_injective h]
  | term text weight =>
    cases other <;> cases htag
    next text' weight' =>
    simp only [encode, wrap_eq_iff, Json.object.injEq, List.cons.injEq, Prod.mk.injEq, true_and,
      and_true] at h
    rw [encodeStrings_injective h.1,
      Json.eq_of_ofDouble_eq (hquery weight rfl) (hother weight' rfl) h.2]
  | directory uris infinite =>
    cases other <;> cases htag
    next uris' infinite' =>
    simp only [encode, wrap_eq_iff, Json.object.injEq, List.cons.injEq, Prod.mk.injEq, true_and,
      and_true, Json.bool.injEq] at h
    rw [encodeStrings_injective h.1, h.2]
  | collection uris | document uris =>
    cases other <;> cases htag
    next uris' =>
    simp only [encode, wrap_eq_iff, Json.object.injEq, List.cons.injEq, Prod.mk.injEq, true_and,
      and_true] at h
    rw [encodeStrings_injective h]
  | rangeConstraint name operator values options =>
    cases other <;> cases htag
    next name' operator' values' options' =>
    simp only [encode, wrap_eq_iff, Json.object.injEq, List.cons.injEq, Prod.mk.injEq, true_and,
      and_true, Json.string.injEq] at h
    obtain ⟨hname, hoperator, hvalues, hoptions⟩ := h
    rw [hname, RangeOperator.label_injective hoperator, encodeValues_injective hvalues,
      encodeStrings_injective hoptions]
  | valueConstraint name weight terms =>
    cases other <;> cases htag
    next name' weight' terms' =>
    simp only [encode, wrap_eq_iff, Json.object.injEq, List.cons.injEq, Prod.mk.injEq, true_and,
      and_true, Json.string.injEq] at h
    obtain ⟨hname, hweight, hterms⟩ := h
    rw [hname, Json.eq_of_ofDouble_eq (hquery weight rfl) (hother weight' rfl) hweight,
      Terms.encodeMember_injective hterms]
  | wordConstraint name text weight =>
    cases other <;> cases htag
    next name' text' weight' =>
    simp only [encode, wrap_eq_iff, Json.object.injEq, List.cons.injEq, Prod.mk.injEq, true_and,
      and_true, Json.string.injEq] at h
    obtain ⟨hname, htext, hweight⟩ := h
    rw [hname, encodeStrings_injective htext,
      Json.eq_of_ofDouble_eq (hquery weight rfl) (hother weight' rfl) hweight]
  | collectionConstraint name uris =>
    cases other <;> cases htag
    next name' uris' =>
    simp only [encode, wrap_eq_iff, Json.object.injEq, List.cons.injEq, Prod.mk.injEq, true_and,
      and_true, Json.string.injEq] at h
    rw [h.1, encodeStrings_injective h.2]
  | customConstraint name text =>
    cases other <;> cases htag
    · next name' text' =>
      simp only [encode, wrap_eq_iff, Json.object.injEq, List.cons.injEq, Prod.mk.injEq, true_and,
        and_true, Json.string.injEq] at h
      rw [h.1, encodeStrings_injective h.2]
    · next name' remark shapes =>
      rw [encode, encode, wrap_eq_iff] at h
      exact absurd h (encodeCustomTerms_ne name text name' remark shapes)
  | customGeospatialConstraint name remark shapes =>
    cases other <;> cases htag
    · next name' text =>
      rw [encode, encode, wrap_eq_iff] at h
      exact absurd h.symm (encodeCustomTerms_ne name' text name remark shapes)
    · next name' remark' shapes' =>
      rw [encode, encode, wrap_eq_iff] at h
      obtain ⟨rfl, rfl, rfl⟩ := encodeCustomGeospatial_injective h
      rfl
  | geospatialConstraint name shapes =>
    cases other <;> cases htag
    next name' shapes' =>
    simp only [encode, wrap_eq_iff, Json.object.injEq, List.cons.injEq, Prod.mk.injEq, true_and,
      Json.string.injEq] at h
    rw [h.1, ShapeLists.encodeMembers_injective h.2]
  | operatorState operator state =>
    cases other <;> cases htag
    next operator' state' =>
    simp only [encode, wrap_eq_iff, Json.object.injEq, List.cons.injEq, Prod.mk.injEq, true_and,
      and_true, Json.string.injEq] at h
    rw [h.1, h.2]

theorem eq_of_encode_eq {query other : Query} (hquery : query.HasFiniteWeights)
    (hother : other.HasFiniteWeights) (h : query.encode = other.encode) :
  query = other
  := by
  induction query using induct generalizing other with
  | step query ih =>
    rw [hasFiniteWeights_iff] at hquery hother
    apply eq_of_encode_eq_of_children _ hquery.1 hother.1 h
    intro child hchild child' hchild'
    apply ih child hchild (hquery.2 child hchild) (hother.2 child' hchild')

/-- Queries of any depth whose weights are finite have the same text exactly if they are the
same. -/
theorem toText_inj {query other : Query} (hquery : query.HasFiniteWeights)
    (hother : other.HasFiniteWeights) :
  query.toText = other.toText ↔ query = other
  := by
  constructor
  · intro h
    apply eq_of_encode_eq hquery hother (Json.compact_injective h)
  · rintro rfl
    rfl

/-- A remark of null is told apart from none, and the whole number one from the double. -/
theorem toText_ne_null_remark :
  (customGeospatialConstraint "place" none .empty).toText
      ≠ (customGeospatialConstraint "place" (some .null) .empty).toText
    ∧ (not (valueConstraint "year" .one (.number [.number (.integer 1 (by decide))]))).toText
      ≠ (not (valueConstraint "year" .one
          (.number [.number (.float .one Double.isFinite_one)]))).toText
  := by
  have hcustom (remark : Option Value) :
      (customGeospatialConstraint "place" remark .empty).HasFiniteWeights := by
    rw [hasFiniteWeights_iff]
    simp [weight?, children]
  have hvalue (terms : Terms) : (not (valueConstraint "year" .one terms)).HasFiniteWeights := by
    have hinner : (valueConstraint "year" .one terms).HasFiniteWeights := by
      rw [hasFiniteWeights_iff]
      simp [weight?, children, Double.isFinite_one]
    rw [hasFiniteWeights_iff]
    simp [weight?, children, hinner]
  constructor
  · rw [ne_eq, toText_inj (hcustom none) (hcustom (some .null))]
    intro h
    cases h
  · rw [ne_eq, toText_inj (hvalue _) (hvalue _)]
    intro h
    cases h

end Query

end StructuredQuery
