import StructuredQuery.BuildError
import StructuredQuery.Proofs.Json.Document
import StructuredQuery.Proofs.Json.Embedding
import StructuredQuery.Proofs.Json.Order
import StructuredQuery.Proofs.Record.Lookup
import StructuredQuery.Proofs.Value
import StructuredQuery.Shape

/-!
# Shapes in JSON

A shape has two forms in JSON, its tree and its value, which differ in the order of the fields
only.  Each of the readers of the four kinds reads just the shapes of its kind, and of these
the finite ones, so the first reader that fits is the one of the kind.
-/

namespace StructuredQuery

/-! ### Scalars of a tree -/

namespace Json

mutual

/-- The parts of a tree that are no containers, in document order. -/
def scalars : Json → List Json
  | .array items => scalarsItems items
  | .object members => scalarsMembers members
  | json => [json]
termination_by structural json => json

/-- The scalars of the items. -/
def scalarsItems : List Json → List Json
  | [] => []
  | item :: items => item.scalars ++ scalarsItems items
termination_by structural items => items

/-- The scalars of the members. -/
def scalarsMembers : List (String × Json) → List Json
  | [] => []
  | (_, value) :: members => value.scalars ++ scalarsMembers members
termination_by structural members => members

end

theorem scalarsItems_eq_flatMap (items : List Json) :
  scalarsItems items = items.flatMap scalars
  := by
  induction items with
  | nil => rfl
  | cons item items ih => rw [scalarsItems, ih, List.flatMap_cons]

theorem scalars_ofDouble (x : Double) :
  (ofDouble x).scalars = [ofDouble x]
  := by
  rw [ofDouble]
  split <;> rfl

end Json

/-! ### Points -/

namespace Point

/-- The coordinates of a point, in the order in which they are written. -/
def coordinates (point : Point) : List Double :=
  [point.latitude, point.longitude]

/-- The tree of a point is the one of its value. -/
theorem isCanonical_encode (point : Point) :
  point.encode.IsCanonical
  := by
  have hkeys : "latitude" < "longitude" := by decide
  exact ⟨List.pairwise_pair.mpr hkeys, Json.isCanonical_ofDouble _, Json.isCanonical_ofDouble _,
    trivial⟩

theorem ofJson_encode (point : Point) :
  Value.ofJson point.encode = point.toValue
  := by
  simp [encode, toValue, Value.ofJson_object, Value.ofJson_ofDouble]

theorem scalars_encode (point : Point) :
  point.encode.scalars = point.coordinates.map .ofDouble
  := by
  simp [encode, coordinates, Json.scalars, Json.scalarsMembers, Json.scalars_ofDouble]

theorem depth_encode (point : Point) :
  point.encode.depth = 1
  := by
  simp [encode, Json.depth, Json.depthMembers, Json.depth_ofDouble]

/-- A point is read if its coordinates are finite. -/
theorem gives_read (point : Point) :
  (read (Doc.ofJson point.encode)).Gives (∀ x ∈ point.coordinates, x.IsFinite) point
  := by
  have hwritten : (Fields.required "latitude" Doc.readDouble
      (.required "longitude" Doc.readDouble .done)).Written (fullRoom - 1)
        [("latitude", .ofDouble point.latitude), ("longitude", .ofDouble point.longitude)]
        (point.latitude.IsFinite ∧ point.longitude.IsFinite ∧ True)
        (point.latitude, point.longitude, ()) := by
    apply Fields.Written.field (Doc.reads_double _ point.latitude) (by simp)
    apply Fields.Written.field (Doc.reads_double _ point.longitude) (by simp)
    apply Fields.Written.done
  apply ((Fields.Written.reads (fun _ => hwritten) .tree "struct GeoPoint").map _).congr _ rfl
  have hdepth : point.encode.depth ≤ fullRoom := by
    rw [depth_encode]
    decide
  rw [encode] at hdepth
  simp [coordinates, hdepth]

@[simp]
theorem read_encode {point other : Point} :
  read (Doc.ofJson point.encode) = .ok other
    ↔ (∀ x ∈ point.coordinates, x.IsFinite) ∧ other = point
  := point.gives_read.eq_ok_iff

end Point

namespace Shape

/-- The coordinates of a shape, in the order in which they are written. -/
def coordinates : Shape → List Double
  | point place => place.coordinates
  | box south west north east => [south, west, north, east]
  | circle radius center => radius :: center.coordinates
  | polygon vertices => vertices.flatMap Point.coordinates

/-- All coordinates are finite. -/
def IsFinite (shape : Shape) : Prop :=
  ∀ x ∈ shape.coordinates, x.IsFinite

instance : DecidablePred IsFinite :=
  fun shape => inferInstanceAs (Decidable (∀ x ∈ shape.coordinates, x.IsFinite))

theorem isFinite_polygon {vertices : List Point} :
  (polygon vertices).IsFinite ↔ ∀ vertex ∈ vertices, ∀ x ∈ vertex.coordinates, x.IsFinite
  := List.forall_mem_flatMap

/-! ### The two forms -/

/-- The members of the tree of a shape. -/
def members : Shape → List (String × Json)
  | point place =>
    [("latitude", .ofDouble place.latitude), ("longitude", .ofDouble place.longitude)]
  | box south west north east =>
    [("south", .ofDouble south), ("west", .ofDouble west), ("north", .ofDouble north),
      ("east", .ofDouble east)]
  | circle radius center => [("radius", .ofDouble radius), ("point", center.encode)]
  | polygon vertices => [("point", .array (vertices.map Point.encode))]

theorem encode_eq (shape : Shape) :
  shape.encode = .object shape.members
  := by
  cases shape <;> rfl

theorem nodup_members (shape : Shape) :
  (shape.members.map Prod.fst).Nodup
  := by
  cases shape <;> simp [members]

/-- The value of a shape is what its tree holds. -/
theorem ofJson_encode (shape : Shape) :
  Value.ofJson shape.encode = shape.toValue
  := by
  cases shape with
  | point place => apply Point.ofJson_encode
  | box south west north east => simp [encode, toValue, Value.ofJson_object, Value.ofJson_ofDouble]
  | circle radius center =>
    simp [encode, toValue, Value.ofJson_object, Value.ofJson_ofDouble, Point.ofJson_encode]
  | polygon vertices =>
    have hvertex : Value.ofJson ∘ Point.encode = Point.toValue := funext Point.ofJson_encode
    simp [encode, toValue, Value.ofJson_object, Value.ofJson_array, hvertex]

theorem canonicalMembers_members (shape : Shape) :
  Json.CanonicalMembers shape.members
  := by
  cases shape with
  | point place | box south west north east | circle radius center =>
    simp [members, Json.CanonicalMembers, Json.isCanonical_ofDouble, Point.isCanonical_encode]
  | polygon vertices =>
    simp [members, Json.CanonicalMembers, Json.IsCanonical, Json.canonicalItems_iff,
      Point.isCanonical_encode]

/-- Both trees of a shape have its members, in some order. -/
theorem exists_perm {shape : Shape} {json : Json}
    (h : json = shape.encode ∨ json = shape.toValue.json) :
  ∃ members, json = .object members ∧ members.Perm shape.members
  := by
  rcases h with rfl | rfl
  · use shape.members, shape.encode_eq
  · use Json.sortMembers shape.members
    constructor
    · rw [← ofJson_encode, encode_eq, Value.ofJson]
      simp only [Json.canonical]
      rw [Json.canonicalMembers_of_canonicalMembers _ shape.canonicalMembers_members]
    · apply Json.perm_sortMembers shape.nodup_members

theorem scalars_encode (shape : Shape) :
  shape.encode.scalars = shape.coordinates.map .ofDouble
  := by
  cases shape with
  | point place => apply Point.scalars_encode
  | box south west north east | circle radius center =>
    simp [encode, coordinates, Json.scalars, Json.scalarsMembers, Json.scalars_ofDouble,
      Point.scalars_encode]
  | polygon vertices =>
    simp [encode, coordinates, Json.scalars, Json.scalarsMembers, Json.scalarsItems_eq_flatMap,
      Point.scalars_encode, List.flatMap_map, List.map_flatMap]

theorem depthMembers_members (shape : Shape) :
  Json.depthMembers shape.members ≤ 2
  := by
  cases shape with
  | point place | box south west north east | circle radius center =>
    simp [members, Json.depthMembers, Json.depth_ofDouble, Point.depth_encode]
  | polygon vertices =>
    simp [members, Json.depthMembers, Json.depth, Json.depthItems_le_iff, Point.depth_encode]

theorem depth_le_of_perm {shape : Shape} {members : List (String × Json)}
    (h : members.Perm shape.members) :
  (Json.object members).depth ≤ fullRoom
  := by
  have hmembers : Json.depthMembers members ≤ 2 := by
    rw [Json.depthMembers_le_iff]
    intro member hmember
    apply Json.depthMembers_le_iff.mp shape.depthMembers_members
    exact h.mem_iff.mp hmember
  rw [Json.depth, fullRoom]
  omega

/-! ### The four readers -/

section

variable {shape other : Shape} {shuffled : List (String × Json)}
  (h : shuffled.Perm shape.members)

include h

/-- A record is made up of what is found among the members of the shape. -/
theorem record_eq_ok_iff {α : Type} {types : List Type} {fields : Fields types}
    (hkeys : fields.keys.Nodup) {name : String} {build : Tuple types → α} {value : α} :
  build <$> fields.read .tree name fullRoom (Doc.ofJson (.object shuffled)) = .ok value
    ↔ ∃ values, fields.Finds (shape.members.lookup ·) values ∧ build values = value
  := by
  have hshuffled : (shuffled.map Prod.fst).Nodup :=
    (h.map Prod.fst).nodup_iff.mpr shape.nodup_members
  have hfound : (shuffled.lookup ·) = (shape.members.lookup ·) :=
    funext fun key => Json.lookup_perm h hshuffled
  rw [Except.map_eq_ok_iff]
  apply exists_congr
  intro values
  rw [Fields.read_object_eq_ok_iff hshuffled hkeys (by decide), hfound]

theorem readPoint_eq_ok_iff :
  point <$> Point.read (Doc.ofJson (.object shuffled)) = .ok other
    ↔ (shape.kind = .point ∧ shape.IsFinite) ∧ shape = other
  := by
  have hkeys : (Fields.required "latitude" Doc.readDouble
      (.required "longitude" Doc.readDouble .done)).keys.Nodup := by decide
  have hplace (place : Point) : Point.read (Doc.ofJson (.object shuffled)) = .ok place ↔ _ :=
    record_eq_ok_iff h hkeys
  simp only [Except.map_eq_ok_iff, hplace, Fields.exists_finds_required_iff,
    Fields.exists_finds_done_iff]
  cases shape with
  | point place =>
    simp [members, kind, List.lookup_cons, IsFinite, coordinates, Point.coordinates, and_assoc]
  | _ => simp [members, kind, List.lookup_cons]

theorem readBox_eq_ok_iff :
  readBox (Doc.ofJson (.object shuffled)) = .ok other
    ↔ (shape.kind = .box ∧ shape.IsFinite) ∧ shape = other
  := by
  rw [readBox, record_eq_ok_iff h (by decide)]
  simp only [Fields.exists_finds_required_iff, Fields.exists_finds_done_iff]
  cases shape with
  | box south west north east =>
    simp [members, kind, List.lookup_cons, IsFinite, coordinates, and_assoc]
  | _ => simp [members, kind, List.lookup_cons]

theorem readCircle_eq_ok_iff :
  readCircle (Doc.ofJson (.object shuffled)) = .ok other
    ↔ (shape.kind = .circle ∧ shape.IsFinite) ∧ shape = other
  := by
  rw [readCircle, record_eq_ok_iff h (by decide)]
  simp only [Fields.exists_finds_required_iff, Fields.exists_finds_done_iff]
  cases shape with
  | circle radius center =>
    simp [members, kind, List.lookup_cons, IsFinite, coordinates, and_assoc]
  | _ => simp [members, kind, List.lookup_cons]

/-- What stands under `point` is a list in a polygon only: in a circle it is an object. -/
theorem readPolygon_eq_ok_iff :
  readPolygon (Doc.ofJson (.object shuffled)) = .ok other
    ↔ (shape.kind = .polygon ∧ shape.IsFinite) ∧ shape = other
  := by
  rw [readPolygon, record_eq_ok_iff h (by decide)]
  simp only [Fields.exists_finds_required_iff, Fields.exists_finds_done_iff]
  cases shape with
  | polygon vertices =>
    have hvertices (places : List Point) :
        Doc.readList fullRoom Point.read (Doc.ofJson (.array (vertices.map Point.encode)))
          = .ok places ↔ _ :=
      (Doc.gives_list (fun vertex _ => vertex.gives_read) (by decide)).eq_ok_iff
    simp [members, kind, hvertices, isFinite_polygon]
  | circle radius center =>
    have hcenter (places : List Point) :
        Doc.readList fullRoom Point.read (Doc.ofJson center.encode) ≠ .ok places :=
      Doc.refuse_ne_ok _ _ _
    simp [members, kind, List.lookup_cons, hcenter]
  | _ => simp [members, kind, List.lookup_cons]

/-- A tree of a shape is read as the shape if it is finite, and else as nothing. -/
theorem ofTree?_eq :
  ofTree? (.object shuffled) = if shape.IsFinite then some shape else none
  := by
  have hpoint := Except.toOption_eq_ite fun _ => readPoint_eq_ok_iff h
  have hbox := Except.toOption_eq_ite fun _ => readBox_eq_ok_iff h
  have hcircle := Except.toOption_eq_ite fun _ => readCircle_eq_ok_iff h
  have hpolygon := Except.toOption_eq_ite fun _ => readPolygon_eq_ok_iff h
  simp only [ofTree?, List.findSome?_cons, List.findSome?_nil, hpoint, hbox, hcircle, hpolygon]
  cases shape.kind <;> by_cases hfinite : shape.IsFinite <;> simp [hfinite]

end

/-! ### Texts -/

/-- A text that is JSON is read as the shape that its tree holds. -/
theorem ofText_of_json {text : String} {json : Json} (h : Json.ofText text = .ok json) :
  ofText text = (ofTree? json).elim (.error (.noForm "Shape")) .ok
  := by
  obtain ⟨htext, hdepth⟩ := Json.ofText_eq_ok_iff.mp h
  have htree := (Doc.reads_tree json fullRoom).ok ⟨hdepth, trivial⟩
  rw [ofText, htext, Document.read_eq]
  simp only [read, htree, bind, Except.bind]
  cases ofTree? json <;> rfl

/-- The tree of a shape and the one of its value hold the same, its coordinates in order, with
null for those that are not finite.  Either of them, in any text, is read back as the shape if all
coordinates are finite, and is refused as bad data if not. -/
theorem reads_back (shape : Shape) :
  Value.ofJson shape.encode = shape.toValue
  ∧ shape.encode.scalars = shape.coordinates.map .ofDouble
  ∧ (∀ x, Json.ofDouble x = .null ↔ ¬x.IsFinite)
  ∧ ∀ json, json = shape.encode ∨ json = shape.toValue.json →
    ofTree? json = (if shape.IsFinite then some shape else none)
    ∧ Json.ofText json.compact = .ok json
    ∧ ∀ text, Json.ofText text = .ok json →
      (ofText text).mapError BuildError.badData
        = if shape.IsFinite then .ok shape else .error (.badData (.noForm "Shape"))
  := by
  use shape.ofJson_encode, shape.scalars_encode, fun x => Json.ofDouble_eq_null_iff
  intro json hjson
  obtain ⟨shuffled, rfl, hperm⟩ := exists_perm hjson
  use ofTree?_eq hperm
  use Json.ofText_eq_ok_iff.mpr ⟨Document.ofText_compact _, depth_le_of_perm hperm⟩
  intro text htext
  rw [ofText_of_json htext, ofTree?_eq hperm]
  split <;> rfl

/-- A circle is read back from the text of its value, in which its center comes first, but not
one without a radius. -/
theorem reads_back_circle :
  let center : Point := ⟨.ofInt 1, .zero true⟩
  let circle : Shape := .circle (.ofInt 3) center
  let endless : Shape := .circle (.infinite false) center
  (ofText circle.toValue.json.compact).mapError BuildError.badData = .ok circle
    ∧ (ofText endless.encode.compact).mapError BuildError.badData
      = .error (.badData (.noForm "Shape"))
  := by
  intro center circle endless
  have hcircle : circle.IsFinite := by decide
  have hendless : ¬endless.IsFinite := by decide
  obtain ⟨-, -, -, hvalue⟩ := reads_back circle
  obtain ⟨-, -, -, htree⟩ := reads_back endless
  obtain ⟨-, hread, hback⟩ := hvalue _ (Or.inr rfl)
  obtain ⟨-, hrefused, hnothing⟩ := htree _ (Or.inl rfl)
  constructor
  · rw [hback _ hread, if_pos hcircle]
  · rw [hnothing _ hrefused, if_neg hendless]

end Shape

end StructuredQuery
