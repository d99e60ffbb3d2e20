import StructuredQuery.Proofs.Query.RoundTrip
import StructuredQuery.Proofs.Reading.Success

/-!
# Settled queries

A query is settled if its weights are finite and no remark is null, so that only its depth
decides whether its own text is read.  It is settled as soon as the queries inside it are
and its parameters are not too deep.
-/

namespace StructuredQuery

namespace Json

theorem depth_object_le {members : List (String × Json)} {bound : ℕ} (hpos : 0 < bound)
    (h : ∀ member ∈ members, member.2.depth < bound) :
  (object members).depth ≤ bound
  := by
  rw [depth, Nat.succ_le_iff, Nat.lt_iff_le_pred hpos, depthMembers_le_iff]
  intro member hmember
  apply Nat.le_pred_of_lt (h member hmember)

end Json

namespace Tag

theorem depth_wrap (tag : Tag) (parameters : Json) :
  (tag.wrap parameters).depth = parameters.depth + 1
  := by
  simp [wrap, Json.depth, Json.depthMembers]

end Tag

namespace Query

/-- The weights of the query are finite, it has no remark that is null, and its wire form is
no deeper than `bound`. -/
structure Settled (bound : ℕ) (query : Query) : Prop where
  depth_le : query.encode.depth ≤ bound
  finite : query.HasFiniteWeights
  strip_eq : query.strip = query

theorem Settled.mono {bound other : ℕ} {query : Query} (h : query.Settled bound)
    (hle : bound ≤ other) :
  query.Settled other
  := ⟨Nat.le_trans h.depth_le hle, h.finite, h.strip_eq⟩

/-- A query is settled if what it holds is, and its parameters are not too deep. -/
theorem settled_of_parameters {query : Query} {parameters : Json} {bound : ℕ}
    (hencode : query.encode = query.tag.wrap parameters) (hdepth : parameters.depth ≤ bound)
    (hweight : ∀ weight ∈ query.weight?, weight.IsFinite)
    (hchildren : ∀ child ∈ query.children, child.HasFiniteWeights)
    (hstrip : query.strip = query) :
  query.Settled (bound + 1)
  := by
  constructor
  · rw [hencode, Tag.depth_wrap]
    apply Nat.succ_le_succ hdepth
  · rw [hasFiniteWeights_iff]
    use hweight
  · exact hstrip

/-- A query that holds no other is settled if its weight is finite and its parameters are not
too deep. -/
theorem settled_of_leaf {query : Query} {members : List (String × Json)} {bound : ℕ}
    (hencode : query.encode = query.tag.wrap (.object members)) (hpos : 0 < bound)
    (hmembers : ∀ member ∈ members, member.2.depth < bound)
    (hchildren : query.children = []) (hweight : ∀ weight ∈ query.weight?, weight.IsFinite)
    (hstrip : query.strip = query) :
  query.Settled (bound + 1)
  := settled_of_parameters hencode (Json.depth_object_le hpos hmembers) hweight
    (by simp [hchildren]) hstrip

/-- A query that holds a list of settled queries and nothing else that has any depth. -/
theorem settled_of_list {query : Query} {queries : List Query} {members : List (String × Json)}
    {bound : ℕ} (h : ∀ child ∈ queries, child.Settled bound)
    (hencode : query.encode
      = query.tag.wrap (.object (("queries", .array (encodeList queries)) :: members)))
    (hmembers : ∀ member ∈ members, member.2.depth = 0) (hchildren : query.children = queries)
    (hweight : query.weight? = none)
    (hstrip : stripList queries = queries → query.strip = query) :
  query.Settled (bound + 3)
  := by
  apply settled_of_parameters hencode
  · apply Json.depth_object_le (Nat.succ_pos _)
    rw [List.forall_mem_cons]
    constructor
    · rw [Json.depth, Nat.lt_succ_iff, Nat.succ_le_succ_iff, encodeList_eq_map,
        Json.depthItems_le_iff, List.forall_mem_map]
      exact fun child hchild => (h child hchild).depth_le
    · intro member hmember
      rw [hmembers member hmember]
      apply Nat.succ_pos
  · simp [hweight]
  · rw [hchildren]
    exact fun child hchild => (h child hchild).finite
  · apply hstrip
    rw [stripList_eq_map, List.map_congr_left fun child hchild => (h child hchild).strip_eq]
    apply List.map_id

/-- A wrapper around a settled query. -/
theorem settled_of_child {query child : Query} {bound : ℕ} (h : child.Settled bound)
    (hencode : query.encode = query.tag.wrap child.encode) (hchildren : query.children = [child])
    (hweight : query.weight? = none) (hstrip : child.strip = child → query.strip = query) :
  query.Settled (bound + 1)
  := settled_of_parameters hencode h.depth_le (by simp [hweight]) (by simp [hchildren, h.finite])
    (hstrip h.strip_eq)

theorem settled_boost {matching boosting : Query} {bound : ℕ}
    (hmatching : matching.Settled bound) (hboosting : boosting.Settled bound) :
  (boost matching boosting).Settled (bound + 2)
  := by
  apply settled_of_parameters rfl
  · apply Json.depth_object_le (Nat.succ_pos _)
    simp only [List.forall_mem_cons]
    exact ⟨Nat.lt_succ_of_le hmatching.depth_le, Nat.lt_succ_of_le hboosting.depth_le, by simp⟩
  · simp [weight?]
  · simp [children, hmatching.finite, hboosting.finite]
  · rw [strip, hmatching.strip_eq, hboosting.strip_eq]

/-- A settled query for which there is room is read from its own text. -/
theorem Settled.ofText_toText {bound : ℕ} {query : Query} (h : query.Settled bound)
    (hbound : bound ≤ fullRoom) :
  ofText query.toText = .ok query
  := by
  rw [ofText, toText, Document.ofText_compact, Document.read_eq_ok_iff]
  have hread := (reads_read query (Nat.le_refl fullRoom)).ok
    ⟨Nat.le_trans h.depth_le hbound, h.finite⟩
  rw [h.strip_eq] at hread
  exact ⟨hread, by simp⟩

/-- The text of a query that is too deep is refused. -/
theorem exists_ofText_toText_eq_error {query : Query} (h : fullRoom < query.encode.depth) :
  ∃ cause, ofText query.toText = .error cause
  := by
  obtain ⟨cause, hcause⟩ := (reads_read query (Nat.le_refl fullRoom)).error
    fun hboth => Nat.not_lt_of_le hboth.1 h
  use cause
  rw [ofText, toText, Document.ofText_compact, Document.read_eq, hcause]

end Query

end StructuredQuery
