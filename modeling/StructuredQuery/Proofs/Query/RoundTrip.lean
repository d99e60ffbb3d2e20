import StructuredQuery.BuildError
import StructuredQuery.Proofs.Json.Document
import StructuredQuery.Proofs.Query.Reader

/-!
# The round trip of the wire form

Either text of a query is read as the query itself, but for remarks of null, if its
weights are finite and it opens no more containers than there is room for; every other
text of a query is refused.
-/

namespace StructuredQuery

namespace Query

mutual

/-- The query without the remarks that are null. -/
def strip : Query → Query
  | .query children => .query (stripList children)
  | .and children ordered => .and (stripList children) ordered
  | .or children => .or (stripList children)
  | .not child => .not child.strip
  | .boost matching boosting => .boost matching.strip boosting.strip
  | .propertiesFragment child => .propertiesFragment child.strip
  | .documentFragment child => .documentFragment child.strip
  | .locksFragment child => .locksFragment child.strip
  | .customGeospatialConstraint name remark shapes =>
    .customGeospatialConstraint name (readRemark remark) shapes
  | other => other
termination_by structural query => query

/-- Each query without the remarks that are null. -/
def stripList : List Query → List Query
  | [] => []
  | child :: children => child.strip :: stripList children
termination_by structural children => children

end

/-- All weights in the query are finite. -/
def HasFiniteWeights (query : Query) : Prop :=
  query.Everywhere fun node => ∀ weight ∈ node.weight?, weight.IsFinite

theorem hasFiniteWeights_iff {query : Query} :
  query.HasFiniteWeights
    ↔ (∀ weight ∈ query.weight?, weight.IsFinite) ∧ ∀ child ∈ query.children, child.HasFiniteWeights
  := everywhere_iff

theorem encodeList_eq_map (children : List Query) :
  encodeList children = children.map encode
  := by
  induction children with
  | nil => rfl
  | cons child children ih => rw [encodeList, ih, List.map_cons]

theorem stripList_eq_map (children : List Query) :
  stripList children = children.map strip
  := by
  induction children with
  | nil => rfl
  | cons child children ih => rw [stripList, ih, List.map_cons]

/-! ### Parameters -/

/-- The readers of inner queries read the children of a query. -/
structure Inner.Reads (inner : Inner) (room : ℕ) (query : Query) : Prop where
  asParameters : ∀ child ∈ query.children,
    Doc.Reads room inner.child child.encode child.HasFiniteWeights child.strip
  asQuery : 0 < room → ∀ child ∈ query.children,
    Doc.Reads (room - 1) inner.query child.encode child.HasFiniteWeights child.strip
  asList : 0 < room →
    Doc.Reads (room - 1) inner.queries (.array (encodeList query.children))
      (∀ child ∈ query.children, child.HasFiniteWeights) (stripList query.children)

/-- Parameters that are a record are read as what the record is built into. -/
theorem reads_record {types : List Type} {fields : Fields types} {name : String}
    {build : Tuple types → Query} {members : List (String × Json)} {room : ℕ}
    {condition other : Prop} {values : Tuple types} {value : Query}
    (h : 0 < room → fields.Written (room - 1) members condition values)
    (hcondition : condition ↔ other) (hvalue : build values = value) :
  Doc.Reads room (fun doc => build <$> fields.read .text name room doc) (.object members) other
    value
  := ((Fields.Written.reads h .text name).map build).congr (and_congr_right' hcondition) hvalue

/-- The form of a query on the wire is its parameters under the name of its production, and
the parameters are read if the children are. -/
theorem exists_parameters (query : Query) {inner : Inner} {room : ℕ} (hroom : room ≤ fullRoom)
    (h : inner.Reads room query) :
  ∃ parameters, query.encode = query.tag.wrap parameters ∧
    Doc.Reads room (readParameters inner room query.tag) parameters
      ((∀ weight ∈ query.weight?, weight.IsFinite)
        ∧ ∀ child ∈ query.children, child.HasFiniteWeights) query.strip
  := by
  cases query with
  | query children | or children =>
    refine ⟨_, rfl, reads_record (fun hpos =>
      .field (h.asList hpos) (by simp) .done) ?_ rfl⟩
    simp [weight?, Query.children]
  | qtext words =>
    refine ⟨_, rfl, ((words.reads room).map Query.qtext).congr ?_ rfl⟩
    simp [weight?, Query.children]
  | term text weight =>
    refine ⟨_, rfl, reads_record (fun _ =>
      .field (Doc.reads_strings _ text) (by simp) <|
      .field (Doc.reads_double _ weight) (by simp) .done) ?_ rfl⟩
    simp [weight?, Query.children]
  | and children ordered =>
    refine ⟨_, rfl, reads_record (fun hpos =>
      .field (h.asList hpos) (by simp) <|
      .field (Doc.reads_bool _ ordered) (by simp) .done) ?_ rfl⟩
    simp [weight?, Query.children]
  | not child | propertiesFragment child | documentFragment child | locksFragment child =>
    have hchild := h.asParameters child (by simp [Query.children])
    refine ⟨_, rfl, (hchild.map _).congr ?_ rfl⟩
    simp [weight?, Query.children]
  | boost matching boosting =>
    have hmatching (hpos : 0 < room) := h.asQuery hpos matching (by simp [Query.children])
    have hboosting (hpos : 0 < room) := h.asQuery hpos boosting (by simp [Query.children])
    refine ⟨_, rfl, reads_record (fun hpos =>
      .field (hmatching hpos) (by simp) <| .field (hboosting hpos) (by simp) .done) ?_ rfl⟩
    simp [weight?, Query.children]
  | directory uris infinite =>
    refine ⟨_, rfl, reads_record (fun _ =>
      .field (Doc.reads_strings _ uris) (by simp) <|
      .field (Doc.reads_bool _ infinite) (by simp) .done) ?_ rfl⟩
    simp [weight?, Query.children]
  | collection uris | document uris =>
    refine ⟨_, rfl, reads_record (fun _ =>
      .field (Doc.reads_strings _ uris) (by simp) .done) ?_ rfl⟩
    simp [weight?, Query.children]
  | rangeConstraint name operator values options =>
    refine ⟨_, rfl, reads_record (fun _ =>
      .field (Doc.reads_string _ name) (by simp) <|
      .field (RangeOperator.reads _ operator) (by simp) <|
      .field (Doc.reads_values _ values) (by simp) <|
      .field (Doc.reads_strings _ options) (by simp) .done) ?_ rfl⟩
    simp [weight?, Query.children]
  | valueConstraint name weight terms =>
    refine ⟨_, rfl, (reads_valueConstraint hroom name weight terms).congr ?_ rfl⟩
    simp [weight?, Query.children]
  | wordConstraint name text weight =>
    refine ⟨_, rfl, reads_record (fun _ =>
      .field (Doc.reads_string _ name) (by simp) <|
      .field (Doc.reads_strings _ text) (by simp) <|
      .field (Doc.reads_double _ weight) (by simp) .done) ?_ rfl⟩
    simp [weight?, Query.children]
  | collectionConstraint name uris =>
    refine ⟨_, rfl, reads_record (fun _ =>
      .field (Doc.reads_string _ name) (by simp) <|
      .field (Doc.reads_strings _ uris) (by simp) .done) ?_ rfl⟩
    simp [weight?, Query.children]
  | customConstraint name text =>
    refine ⟨_, rfl, (reads_customTerms hroom name text).congr ?_ rfl⟩
    simp [weight?, Query.children, encodeCustomTerms]
  | customGeospatialConstraint name remark shapes =>
    refine ⟨_, rfl, (reads_customGeospatial hroom name remark shapes).congr ?_ rfl⟩
    simp [weight?, Query.children, encodeCustomGeospatial]
  | geospatialConstraint name shapes =>
    refine ⟨_, rfl, (reads_geospatial hroom name shapes).congr ?_ rfl⟩
    simp [weight?, Query.children]
  | operatorState operator state =>
    refine ⟨_, rfl, reads_record (fun _ =>
      .field (Doc.reads_string _ operator) (by simp) <|
      .field (Doc.reads_string _ state) (by simp) .done) ?_ rfl⟩
    simp [weight?, Query.children]

/-! ### Queries -/

theorem ofLabel?_label (tag : Tag) :
  Tag.ofLabel? tag.label = some tag
  := by
  cases tag <;> decide

/-- A list of queries is read if each of them is. -/
theorem reads_readList {children : List Query} {room : ℕ}
    (h : ∀ child ∈ children, ∀ inner < room,
      Doc.Reads inner (read inner) child.encode child.HasFiniteWeights child.strip) :
  Doc.Reads room (readList room) (.array (encodeList children))
    (∀ child ∈ children, child.HasFiniteWeights) (stripList children)
  := by
  rw [encodeList_eq_map, stripList_eq_map]
  cases room with
  | zero => exact Doc.reads_list fun hpos => absurd hpos (Nat.lt_irrefl 0)
  | succ room => exact Doc.reads_list fun _ child hchild => h child hchild room room.lt_succ_self

theorem exists_encode_eq (query : Query) :
  ∃ parameters, query.encode = query.tag.wrap parameters
  := by
  cases query <;> exact ⟨_, rfl⟩

/-- A query is read if there is room for the object around its parameters. -/
theorem reads_readLabelled {query : Query} {inner : Inner} {room : ℕ} (hroom : room ≤ fullRoom)
    (h : inner.Reads room query) :
  Doc.Reads (room + 1) (readLabelled (room + 1) (readParameters inner room)) query.encode
    query.HasFiniteWeights query.strip
  := by
  obtain ⟨parameters, hencode, hread⟩ := exists_parameters query hroom h
  rw [hencode]
  exact Doc.reads_labelled (ofLabel?_label query.tag) fun _ =>
    hread.congr (and_congr_right' hasFiniteWeights_iff.symm) rfl

/-- A query is read from its form on the wire if its weights are finite and there is room
for it. -/
theorem reads_read (query : Query) {room : ℕ} (hroom : room ≤ fullRoom) :
  Doc.Reads room (read room) query.encode query.HasFiniteWeights query.strip
  := by
  -- The readers of a query are those of its children, each with less room.
  induction query using induct generalizing room with
  | step query ih =>
    match room with
    | 0 =>
      obtain ⟨parameters, hencode⟩ := exists_encode_eq query
      rw [hencode, read]
      exact Doc.reads_labelled (ofLabel?_label query.tag) fun hpos => absurd hpos (Nat.lt_irrefl 0)
    | 1 =>
      rw [read]
      apply reads_readLabelled (Nat.zero_le _)
      constructor
      · intro child hchild
        apply ih child hchild (Nat.zero_le _)
      · intro hpos
        contradiction
      · intro hpos
        contradiction
    | room + 2 =>
      rw [read]
      apply reads_readLabelled (Nat.le_of_succ_le hroom)
      constructor
      · intro child hchild
        apply ih child hchild (Nat.le_of_succ_le hroom)
      · intro _ child hchild
        apply ih child hchild (by omega)
      · intro _
        apply reads_readList
        intro child hchild inner hinner
        apply ih child hchild (by omega)

/-- The wire form of a query makes the round trip, as compact and as indented text: exactly
if all weights are finite and no more than 127 containers stand inside each other, the text
is read, and what is read is the query without the remarks that are null.  Any other text
is refused as bad data. -/
theorem wire_round_trip (query : Query) :
  ∀ text ∈ [query.toText, query.toPrettyText],
    (query.HasFiniteWeights ∧ query.encode.depth ≤ 127 →
      (ofText text).mapError BuildError.badData = .ok query.strip)
    ∧ (¬(query.HasFiniteWeights ∧ query.encode.depth ≤ 127) →
      ∃ cause, (ofText text).mapError BuildError.badData = .error (.badData cause))
  := by
  intro text htext
  have hdocument : Document.ofText text = ⟨Doc.ofJson query.encode, false⟩ := by
    rcases List.mem_pair.mp htext with rfl | rfl
    · apply Document.ofText_compact
    · apply Document.ofText_pretty
  have hread : ofText text = read fullRoom (Doc.ofJson query.encode) := by
    rw [ofText, hdocument]
    cases hvalue : read fullRoom (Doc.ofJson query.encode) with
    | error cause => simp [Document.read, hvalue, bind, Except.bind]
    | ok value => simp [Document.read, hvalue, bind, Except.bind, pure, Except.pure]
  have hgives := reads_read query (Nat.le_refl fullRoom)
  rw [hread]
  constructor
  · rintro ⟨hfinite, hdepth⟩
    rw [hgives.ok ⟨hdepth, hfinite⟩]
    rfl
  · intro hnot
    obtain ⟨cause, hcause⟩ := hgives.error fun h => hnot ⟨h.2, h.1⟩
    use cause
    rw [hcause]
    rfl

/-- A remark of null is read as none, and a weight that is not finite is refused. -/
theorem wire_round_trip_null_remark :
  (ofText (customGeospatialConstraint "place" (some .null) .empty).toText).mapError
      BuildError.badData = .ok (customGeospatialConstraint "place" none .empty)
    ∧ ∃ cause, (ofText (term ["word"] .nan).toPrettyText).mapError BuildError.badData
      = .error (.badData cause)
  := by
  constructor
  · apply (wire_round_trip (customGeospatialConstraint "place" (some .null) .empty) _
      List.mem_cons_self).1
    constructor
    · rw [hasFiniteWeights_iff]
      simp [weight?, children]
    · decide
  · apply (wire_round_trip (term ["word"] .nan) _ (by simp)).2
    intro h
    rw [hasFiniteWeights_iff] at h
    apply h.1.1 .nan rfl

end Query

end StructuredQuery
