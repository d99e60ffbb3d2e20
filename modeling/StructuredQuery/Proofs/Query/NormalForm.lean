import StructuredQuery.Proofs.Query.Settled
import StructuredQuery.Proofs.Record.Success

/-!
# Reading and writing gives a normal form

Whatever liberties a text takes, the query that is read from it is settled: its weights are
finite, no remark is null, and its wire form is no deeper than the text.  So its own text is
read as the same query.
-/

namespace StructuredQuery

namespace Doc

theorem bounded_strings (room : ℕ) :
  Bounded room (readStrings room) encodeStrings
  := by
  have hitem : Bounded (room - 1) readString Json.string := fun _ _ _ => Nat.zero_le _
  exact bounded_list hitem (by omega)

theorem bounded_values (room : ℕ) :
  Bounded room (readValues room) encodeValues
  := bounded_list (bounded_value (room - 1)) (by omega)

/-- What is read from a part of a document is less deep than the document. -/
theorem Bounded.depth_lt_of_part {α : Type} {read : Doc → Read α} {encode : α → Json}
    {room depth : ℕ} (h : Bounded (room - 1) read encode) (hpos : 0 < min room depth)
    {parts : List Doc} (hparts : ∀ part ∈ parts, part.depth < depth) {value : α}
    (hvalue : ∃ part ∈ parts, read part = .ok value) :
  (encode value).depth < min room depth
  := by
  obtain ⟨part, hpart, hread⟩ := hvalue
  have hbound := h hread
  have hdepth := hparts part hpart
  omega

end Doc

/-! ### Terms and shapes -/

/-- The lists of shapes are less deep than the object that they were members of. -/
theorem ShapeLists.depth_lt_of_ofMembers {others : List (String × Json)} {bound : ℕ}
    (hothers : ∀ member ∈ others, member.2.depth < bound) {shapes : ShapeLists}
    (h : ofMembers others = .ok shapes) :
  ∀ member ∈ shapes.encodeMembers, member.2.depth < bound
  := by
  obtain ⟨⟨points, boxes, circles, polygons, _⟩, hread, rfl⟩ := Except.map_eq_ok_iff.mp h
  have hfrom := Fields.comesFrom_ofMembers hread
  simp only [fields, Fields.required, Fields.ComesFrom, Absent.Allows, or_false] at hfrom
  obtain ⟨hpoints, hboxes, hcircles, hpolygons, -⟩ := hfrom
  have hlist {values : List Value}
      (hvalues : ∃ part ∈ (Doc.ofMembers others).map Prod.snd,
        part.readValues fullRoom = .ok values) : (encodeValues values).depth < bound := by
    obtain ⟨part, hpart, hread⟩ := hvalues
    rw [Doc.ofMembers_eq_map, List.map_map, List.mem_map] at hpart
    obtain ⟨member, hmember, rfl⟩ := hpart
    have hbound := Doc.bounded_values fullRoom hread
    rw [Function.comp_apply, Doc.depth_ofJson] at hbound
    have hdepth := hothers member hmember
    omega
  simp only [encodeMembers, List.forall_mem_cons]
  exact ⟨hlist hpoints, hlist hboxes, hlist hcircles, hlist hpolygons, by simp⟩

/-- Terms are less deep than the object that they were a member of. -/
theorem Terms.depth_lt_of_ofMembers {others : List (String × Json)} {bound : ℕ}
    (hothers : ∀ member ∈ others, member.2.depth < bound) {terms : Terms}
    (h : ofMembers others = .ok terms) :
  terms.encodeMember.2.depth < bound
  := by
  rw [ofMembers] at h
  split at h
  · next type json hfound =>
    obtain ⟨member, hmember, htype⟩ := List.exists_of_findSome?_eq_some hfound
    obtain ⟨_, -, hjson⟩ := Option.map_eq_some_iff.mp htype
    cases hjson
    obtain ⟨values, hread, rfl⟩ := Except.map_eq_ok_iff.mp h
    have hlist : Doc.Bounded (fullRoom + 1) (Doc.readList fullRoom (Doc.readValue fullRoom))
        encodeValues := Doc.bounded_list (Doc.bounded_value fullRoom) fun _ => fullRoom.lt_succ_self
    have hbound := hlist hread
    rw [Doc.depth_ofJson] at hbound
    have hdepth := hothers member hmember
    show (encodeValues values).depth < bound
    omega
  · cases h

namespace Query

/-! ### Parameters -/

/-- The readers of inner queries give settled queries. -/
structure Inner.Settles (inner : Inner) (room : ℕ) : Prop where
  child : ∀ ⦃doc query⦄, inner.child doc = .ok query → query.Settled (min room doc.depth)
  query : ∀ ⦃doc query⦄, inner.query doc = .ok query →
    query.Settled (min (room - 1) doc.depth)
  queries : ∀ ⦃doc queries⦄, inner.queries doc = .ok queries →
    0 < min (room - 1) doc.depth
      ∧ ∀ query ∈ queries, query.Settled (min (room - 1) doc.depth - 1)

/-- A list of queries that is read from a part of a document. -/
theorem Inner.Settles.queries_of_part {inner : Inner} {room depth : ℕ}
    (h : inner.Settles room) {parts : List Doc} (hparts : ∀ part ∈ parts, part.depth < depth)
    {queries : List Query} (hqueries : ∃ part ∈ parts, inner.queries part = .ok queries) :
  ∃ bound, bound + 2 ≤ min room depth ∧ ∀ query ∈ queries, query.Settled bound
  := by
  obtain ⟨part, hpart, hread⟩ := hqueries
  obtain ⟨hpos, hsettled⟩ := h.queries hread
  have hdepth := hparts part hpart
  exact ⟨_, by omega, hsettled⟩

variable {inner : Inner} {room : ℕ} {doc : Doc} {query : Query}

/-- Parameters that are a record come from parts of the document. -/
theorem exists_of_record {types : List Type} {fields : Fields types} {name : String}
    {build : Tuple types → Query} (h : build <$> fields.read .text name room doc = .ok query) :
  0 < min room doc.depth ∧ ∃ values, build values = query
    ∧ ∃ parts : List Doc, (∀ part ∈ parts, part.depth < doc.depth)
      ∧ fields.ComesFrom parts values
  := by
  obtain ⟨values, hread, hbuild⟩ := Except.map_eq_ok_iff.mp h
  obtain ⟨hpos, hparts⟩ := Fields.exists_of_read hread
  exact ⟨hpos, values, hbuild, hparts⟩

theorem settled_of_readGeospatial (h : readGeospatial room doc = .ok query) :
  query.Settled (min room doc.depth + 1)
  := by
  obtain ⟨⟨⟨name, _⟩, others⟩, hopen, h⟩ := Except.bind_eq_ok_iff.mp h
  obtain ⟨shapes, hshapes, h⟩ := Except.bind_eq_ok_iff.mp h
  cases h
  obtain ⟨hpos, -, hothers⟩ := Fields.exists_of_readOpen hopen
  apply settled_of_leaf rfl hpos _ rfl (by simp [weight?]) rfl
  rw [List.forall_mem_cons]
  exact ⟨hpos, ShapeLists.depth_lt_of_ofMembers hothers hshapes⟩

theorem settled_of_readCustomGeospatial (h : readCustomGeospatial doc = .ok query) :
  query.Settled (doc.depth + 1)
  := by
  obtain ⟨⟨⟨name, remark, _⟩, others⟩, hopen, h⟩ := Except.bind_eq_ok_iff.mp h
  obtain ⟨shapes, hshapes, h⟩ := Except.bind_eq_ok_iff.mp h
  cases h
  obtain ⟨hpos, ⟨parts, hparts, hfrom⟩, hothers⟩ := Fields.exists_of_readOpen hopen
  simp only [Fields.required, Fields.optional, Fields.ComesFrom, Absent.Allows, or_false]
    at hfrom
  obtain ⟨-, hfrom, -⟩ := hfrom
  have hremark : ∀ value ∈ remark, value ≠ .null ∧ value.json.depth < doc.depth := by
    rintro value rfl
    rcases hfrom with ⟨part, hpart, hread⟩ | hnone
    · rcases Doc.exists_of_readOption hread with hnone | ⟨hnull, inner, hinner, hread⟩
      · cases hnone
      · cases hinner
        have hdepth := hparts part hpart
        have hbound := Doc.bounded_value fullRoom hread
        exact ⟨Doc.ne_null_of_readValue hnull hread, by omega⟩
    · cases hnone
  have hdepth : 0 < doc.depth := by omega
  apply settled_of_leaf rfl hdepth _ rfl (by simp [weight?])
  · rw [strip, readRemark_eq fun value hvalue => (hremark value hvalue).1]
  · simp only [List.cons_append, List.forall_mem_cons, List.forall_mem_append,
      List.forall_mem_map, Option.mem_toList]
    refine ⟨hdepth, fun value hvalue => (hremark value hvalue).2, ?_⟩
    apply ShapeLists.depth_lt_of_ofMembers _ hshapes
    intro member hmember
    apply Nat.lt_of_lt_of_le (hothers member hmember) (Nat.min_le_right _ _)

theorem settled_of_readCustomTerms (h : readCustomTerms doc = .ok query) :
  query.Settled (doc.depth + 1)
  := by
  obtain ⟨⟨name, text, _⟩, hread, rfl⟩ := Except.map_eq_ok_iff.mp h
  obtain ⟨hpos, parts, hparts, hfrom⟩ := Fields.exists_of_read hread
  simp only [Fields.required, Fields.ComesFrom, Absent.Allows, or_false] at hfrom
  obtain ⟨-, ⟨part, hpart, htext⟩, -⟩ := hfrom
  have hdepth := hparts part hpart
  have hbound := Doc.bounded_strings fullRoom htext
  apply settled_of_leaf rfl (show 0 < doc.depth by omega) _ rfl (by simp [weight?]) rfl
  simp only [List.forall_mem_cons]
  exact ⟨by simp only [Json.depth]; omega, by omega, by simp⟩

theorem settled_of_customOfTree? {json : Json} (h : customOfTree? json = some query) :
  query.Settled (json.depth + 1)
  := by
  obtain ⟨read, hread, h⟩ := List.exists_of_findSome?_eq_some h
  rw [← Doc.depth_ofJson]
  rcases List.mem_pair.mp hread with rfl | rfl
  · apply settled_of_readCustomGeospatial (Except.toOption_eq_some_iff.mp h)
  · apply settled_of_readCustomTerms (Except.toOption_eq_some_iff.mp h)

theorem settled_of_readCustom (h : readCustom room doc = .ok query) :
  query.Settled (min room doc.depth + 1)
  := by
  obtain ⟨json, hjson, h⟩ := Except.bind_eq_ok_iff.mp h
  split at h
  · next found hfound =>
    cases h
    apply (settled_of_customOfTree? hfound).mono
    apply Nat.succ_le_succ (Doc.bounded_tree room hjson)
  · cases h

theorem settled_of_readValueConstraint (h : readValueConstraint room doc = .ok query) :
  query.Settled (min room doc.depth + 1)
  := by
  obtain ⟨⟨⟨name, weight, _⟩, others⟩, hopen, h⟩ := Except.bind_eq_ok_iff.mp h
  obtain ⟨terms, hterms, h⟩ := Except.bind_eq_ok_iff.mp h
  cases h
  obtain ⟨hpos, ⟨parts, -, hfrom⟩, hothers⟩ := Fields.exists_of_readOpen hopen
  simp only [Fields.required, Fields.ComesFrom, Absent.Allows, or_false] at hfrom
  obtain ⟨-, ⟨part, -, hweight⟩, -⟩ := hfrom
  apply settled_of_leaf rfl hpos _ rfl _ rfl
  · simp only [List.forall_mem_cons, Json.depth_ofDouble]
    exact ⟨hpos, hpos, Terms.depth_lt_of_ofMembers hothers hterms, by simp⟩
  · simpa [weight?] using Doc.isFinite_of_readDouble hweight

/-- The parameters of a production are read as a settled query, for the object around them
is one container more. -/
theorem settled_of_readParameters (hinner : inner.Settles room) {tag : Tag}
    (h : readParameters inner room tag doc = .ok query) :
  query.Settled (min room doc.depth + 1)
  := by
  cases tag with
  | query | or =>
    obtain ⟨-, ⟨queries, _⟩, rfl, parts, hparts, hfrom⟩ := exists_of_record h
    simp only [Fields.required, Fields.ComesFrom, Absent.Allows, or_false] at hfrom
    obtain ⟨bound, hbound, hqueries⟩ := hinner.queries_of_part hparts hfrom.1
    refine (settled_of_list hqueries rfl (by simp) rfl rfl ?_).mono (by omega)
    intro hstrip
    rw [strip, hstrip]
  | and =>
    obtain ⟨-, ⟨queries, ordered, _⟩, rfl, parts, hparts, hfrom⟩ := exists_of_record h
    simp only [Fields.required, Fields.ComesFrom, Absent.Allows, or_false] at hfrom
    obtain ⟨bound, hbound, hqueries⟩ := hinner.queries_of_part hparts hfrom.1
    refine (settled_of_list hqueries rfl (by simp [Json.depth]) rfl rfl ?_).mono (by omega)
    intro hstrip
    rw [strip, hstrip]
  | not | propertiesFragment | documentFragment | locksFragment =>
    obtain ⟨child, hchild, rfl⟩ := Except.map_eq_ok_iff.mp h
    apply settled_of_child (hinner.child hchild) rfl rfl rfl
    intro hstrip
    rw [strip, hstrip]
  | boost =>
    obtain ⟨hpos, ⟨matching, boosting, _⟩, rfl, parts, hparts, hfrom⟩ := exists_of_record h
    simp only [Fields.required, Fields.ComesFrom, Absent.Allows, or_false] at hfrom
    obtain ⟨⟨first, hfirst, hmatching⟩, ⟨second, hsecond, hboosting⟩, -⟩ := hfrom
    have hfirst := hparts first hfirst
    have hsecond := hparts second hsecond
    apply (settled_boost ((hinner.query hmatching).mono (Nat.le_max_left _ _))
      ((hinner.query hboosting).mono (Nat.le_max_right _ _))).mono
    omega
  | qtext =>
    obtain ⟨words, hwords, rfl⟩ := Except.map_eq_ok_iff.mp h
    exact settled_of_parameters rfl (Words.bounded room hwords) (by simp [weight?])
      (by simp [children]) rfl
  | term =>
    obtain ⟨hpos, ⟨text, weight, _⟩, rfl, parts, hparts, hfrom⟩ := exists_of_record h
    simp only [Fields.required, Fields.ComesFrom, Absent.Allows, or_false] at hfrom
    obtain ⟨htext, ⟨part, -, hweight⟩, -⟩ := hfrom
    apply settled_of_leaf rfl hpos _ rfl _ rfl
    · simp only [List.forall_mem_cons, Json.depth_ofDouble]
      exact ⟨(Doc.bounded_strings _).depth_lt_of_part hpos hparts htext, hpos, by simp⟩
    · simpa [weight?] using Doc.isFinite_of_readDouble hweight
  | directory =>
    obtain ⟨hpos, ⟨uris, infinite, _⟩, rfl, parts, hparts, hfrom⟩ := exists_of_record h
    simp only [Fields.required, Fields.ComesFrom, Absent.Allows, or_false] at hfrom
    apply settled_of_leaf rfl hpos _ rfl (by simp [weight?]) rfl
    simp only [List.forall_mem_cons]
    exact ⟨(Doc.bounded_strings _).depth_lt_of_part hpos hparts hfrom.1, hpos, by simp⟩
  | collection | document =>
    obtain ⟨hpos, ⟨uris, _⟩, rfl, parts, hparts, hfrom⟩ := exists_of_record h
    simp only [Fields.required, Fields.ComesFrom, Absent.Allows, or_false] at hfrom
    apply settled_of_leaf rfl hpos _ rfl (by simp [weight?]) rfl
    simp only [List.forall_mem_cons]
    exact ⟨(Doc.bounded_strings _).depth_lt_of_part hpos hparts hfrom.1, by simp⟩
  | rangeConstraint =>
    obtain ⟨hpos, ⟨name, operator, values, options, _⟩, rfl, parts, hparts, hfrom⟩ :=
      exists_of_record h
    simp only [Fields.required, Fields.ComesFrom, Absent.Allows, or_false] at hfrom
    obtain ⟨-, -, hvalues, hoptions, -⟩ := hfrom
    apply settled_of_leaf rfl hpos _ rfl (by simp [weight?]) rfl
    simp only [List.forall_mem_cons]
    exact ⟨hpos, hpos, (Doc.bounded_values _).depth_lt_of_part hpos hparts hvalues,
      (Doc.bounded_strings _).depth_lt_of_part hpos hparts hoptions, by simp⟩
  | valueConstraint => exact settled_of_readValueConstraint h
  | wordConstraint =>
    obtain ⟨hpos, ⟨name, text, weight, _⟩, rfl, parts, hparts, hfrom⟩ := exists_of_record h
    simp only [Fields.required, Fields.ComesFrom, Absent.Allows, or_false] at hfrom
    obtain ⟨-, htext, ⟨part, -, hweight⟩, -⟩ := hfrom
    apply settled_of_leaf rfl hpos _ rfl _ rfl
    · simp only [List.forall_mem_cons, Json.depth_ofDouble]
      exact ⟨hpos, (Doc.bounded_strings _).depth_lt_of_part hpos hparts htext, hpos, by simp⟩
    · simpa [weight?] using Doc.isFinite_of_readDouble hweight
  | collectionConstraint =>
    obtain ⟨hpos, ⟨name, uris, _⟩, rfl, parts, hparts, hfrom⟩ := exists_of_record h
    simp only [Fields.required, Fields.ComesFrom, Absent.Allows, or_false] at hfrom
    apply settled_of_leaf rfl hpos _ rfl (by simp [weight?]) rfl
    simp only [List.forall_mem_cons]
    exact ⟨hpos, (Doc.bounded_strings _).depth_lt_of_part hpos hparts hfrom.2.1, by simp⟩
  | customConstraint => exact settled_of_readCustom h
  | geospatialConstraint => exact settled_of_readGeospatial h
  | operatorState =>
    obtain ⟨hpos, ⟨operator, state, _⟩, rfl, -⟩ := exists_of_record h
    apply settled_of_leaf rfl hpos _ rfl (by simp [weight?]) rfl
    simp only [List.forall_mem_cons]
    exact ⟨hpos, hpos, by simp⟩

/-! ### Queries -/

/-- A query under its label is settled if its parameters are. -/
theorem settled_of_readLabelled (hinner : inner.Settles room)
    (h : readLabelled (room + 1) (readParameters inner room) doc = .ok query) :
  query.Settled (min (room + 1) doc.depth)
  := by
  obtain ⟨-, label, tag, parameters, rfl, -, hread⟩ :=
    Doc.exists_of_readLabelled (by simp) h
  apply (settled_of_readParameters hinner hread).mono
  simp only [Doc.depth, Doc.depthMembers]
  omega

/-- A list that is read holds settled queries if the queries that are read are settled. -/
theorem settled_of_readList {queries : List Query}
    (hread : ∀ inner < room, ∀ {doc query}, read inner doc = .ok query →
      query.Settled (min inner doc.depth))
    (h : readList room doc = .ok queries) :
  0 < min room doc.depth ∧ ∀ query ∈ queries, query.Settled (min room doc.depth - 1)
  := by
  cases room with
  | zero => exact absurd (Doc.exists_of_readList h).1 (Nat.lt_irrefl 0)
  | succ room =>
    obtain ⟨hroom, items, rfl, hitems⟩ := Doc.exists_of_readList h
    use Nat.lt_min.mpr ⟨hroom, Nat.succ_pos _⟩
    intro query hquery
    obtain ⟨item, hitem, hok⟩ := Except.exists_of_mem_mapM hitems hquery
    have hdepth := Doc.depth_le_depthItems hitem
    apply (hread room room.lt_succ_self hok).mono
    rw [Doc.depth]
    omega

/-- A query that is read is settled, no deeper than the document and the room. -/
theorem settled_of_read (h : read room doc = .ok query) :
  query.Settled (min room doc.depth)
  := by
  have hnone {α : Type} (doc : Doc) (value : α) : noRoom doc ≠ .ok value := by
    simp [noRoom, Read.fail]
  -- The readers of a query are those of its children, each with less room.
  induction room using Nat.strong_induction_on generalizing doc query with
  | h room ih =>
    obtain _ | _ | room := room
    · exact absurd (Doc.exists_of_readLabelled (by simp) h).1 (Nat.lt_irrefl 0)
    · apply settled_of_readLabelled _ h
      constructor
      · exact fun doc query h => ih 0 Nat.zero_lt_one h
      · exact fun doc query h => absurd h (hnone doc query)
      · exact fun doc queries h => absurd h (hnone doc queries)
    · apply settled_of_readLabelled _ h
      constructor
      · exact fun doc query h => ih (room + 1) (by omega) h
      · exact fun doc query h => ih room (by omega) h
      · exact fun doc queries h =>
          settled_of_readList (fun inner hinner => ih inner (by omega)) h

/-! ### Texts -/

/-- Whatever text a query is read from, it is read from its own text too, which nests no more
containers; reading and writing a second time gives the same text again. -/
theorem ofText_toText_of_ofText {text : String} {query : Query} (h : ofText text = .ok query) :
  ofText query.toText = .ok query
    ∧ Document.nesting query.toText ≤ Document.nesting text
    ∧ toText <$> ofText query.toText = toText <$> ofText text
  := by
  have hsettled := settled_of_read (Document.read_eq_ok_iff.mp h).1
  have hread := hsettled.ofText_toText (Nat.min_le_left _ _)
  refine ⟨hread, ?_, by rw [hread, h]⟩
  rw [toText, Document.nesting_compact]
  apply Nat.le_trans hsettled.depth_le (Nat.min_le_right _ _)

/-- An indented text with parameters in an array, an operator in lower case, a remark of null
and a further key. -/
theorem ofText_toText_of_ofText_loose :
  let text := (Json.object [("or-query", .object [("extra", .array [.array [.array [.array []]]]),
    ("queries", .array [
      .object [("range-constraint-query",
        .array [.string "price", .string "lt", .array [.null], .array []])],
      .object [("custom-constraint-query", .object [("annotation", .null),
        ("constraint-name", .string "place"), ("point", .array []), ("box", .array []),
        ("circle", .array []), ("polygon", .array [])])]])])]).pretty
  let query := Query.or [.rangeConstraint "price" .lt [.null] [],
    .customGeospatialConstraint "place" none .empty]
  ofText text = .ok query ∧ ofText query.toText = .ok query
    ∧ Document.nesting query.toText ≤ Document.nesting text
  := by
  intro text query
  have hread : ofText text = .ok query := by
    rw [ofText, Document.ofText_pretty]
    rfl
  obtain ⟨hsame, hnesting, -⟩ := ofText_toText_of_ofText hread
  exact ⟨hread, hsame, hnesting⟩

end Query

end StructuredQuery
