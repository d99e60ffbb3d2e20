import Mathlib.Data.List.Perm.Basic
import StructuredQuery.Proofs.Classification
import StructuredQuery.Proofs.Defaults
import StructuredQuery.Query.Wire

/-!
# Where shapes go

Sorting loses, repeats and reorders nothing.  Each shape goes to one of five places, the lists of
the four kinds and the list of the shapes of no kind, and `ShapeInput.placed` says which shapes
go to a place, with their positions.
-/

namespace StructuredQuery

namespace ShapeInput

/-- The places of shapes: that of each kind, and that of no kind. -/
def places : List (Option ShapeKind) :=
  [some .point, some .box, some .circle, some .polygon, none]

/-- The shapes that go to a place, with their positions, of which `index` is the first one. -/
def placedFrom (index : ℕ) (place : Option ShapeKind) (inputs : List ShapeInput) :
    List (ℕ × Value) :=
  ((inputs.zipIdx index).filter fun entry => entry.1.kind? = place).map
    fun entry => (entry.2, entry.1.toValue)

/-- The shapes that go to a place, with their positions. -/
def placed (place : Option ShapeKind) (inputs : List ShapeInput) : List (ℕ × Value) :=
  placedFrom 0 place inputs

theorem mem_places (place : Option ShapeKind) :
  place ∈ places
  := by
  cases place with
  | none => decide
  | some kind => cases kind <;> decide

theorem placedFrom_cons (index : ℕ) (place : Option ShapeKind) (input : ShapeInput)
    (inputs : List ShapeInput) :
  placedFrom index place (input :: inputs)
    = if input.kind? = place then (index, input.toValue) :: placedFrom (index + 1) place inputs
      else placedFrom (index + 1) place inputs
  := by
  rw [placedFrom, List.zipIdx_cons, List.filter_cons]
  split <;> simp_all [placedFrom]

theorem snd_placedFrom (index : ℕ) (kind : ShapeKind) (inputs : List ShapeInput) :
  (placedFrom index (some kind) inputs).map Prod.snd = ofKind kind inputs
  := by
  induction inputs generalizing index with
  | nil => rfl
  | cons input inputs ih =>
    rw [placedFrom_cons, ofKind, List.filter_cons]
    by_cases hkind : input.kind? = some kind
    · simp [hkind, ih, ofKind]
    · simp [hkind, ih, ofKind]

/-- The shapes of a place are found in the input at their positions. -/
theorem mem_placed_iff {place : Option ShapeKind} {inputs : List ShapeInput} {index : ℕ}
    {value : Value} :
  (index, value) ∈ placed place inputs
    ↔ ∃ input, inputs[index]? = some input ∧ input.kind? = place ∧ input.toValue = value
  := by
  simp only [placed, placedFrom, List.mem_map, List.mem_filter, decide_eq_true_eq, Prod.mk.injEq]
  constructor
  · rintro ⟨⟨input, position⟩, ⟨hinput, hplace⟩, rfl, rfl⟩
    exact ⟨input, List.mem_zipIdx_iff_getElem?.mp hinput, hplace, rfl⟩
  · rintro ⟨input, hinput, hplace, rfl⟩
    exact ⟨(input, index), ⟨List.mem_zipIdx_iff_getElem?.mpr hinput, hplace⟩, rfl, rfl⟩

/-- The positions of a place ascend. -/
theorem pairwise_placed (place : Option ShapeKind) (inputs : List ShapeInput) :
  ((placed place inputs).map Prod.fst).Pairwise (· < ·)
  := by
  have hsublist : (((inputs.zipIdx 0).filter fun entry => entry.1.kind? = place).map
      Prod.snd).Sublist (List.range' 0 inputs.length) := by
    rw [← List.zipIdx_map_snd]
    exact List.filter_sublist.map Prod.snd
  rw [placed, placedFrom, List.map_map]
  apply List.Pairwise.sublist hsublist
  exact List.pairwise_lt_range'

end ShapeInput

/-- The parts of a list on which a function takes its values make up the list. -/
theorem perm_flatMap_filter {α β : Type} [DecidableEq β] (f : α → β) {values : List β}
    (hvalues : values.Nodup) {list : List α} (h : ∀ a ∈ list, f a ∈ values) :
  (values.flatMap fun value => list.filter fun a => f a = value).Perm list
  := by
  induction values generalizing list with
  | nil =>
    obtain rfl := List.eq_nil_iff_forall_not_mem.mpr fun a ha => List.not_mem_nil (h a ha)
    rfl
  | cons value values ih =>
    obtain ⟨hvalue, hvalues⟩ := List.nodup_cons.mp hvalues
    have hrest : (values.flatMap fun other => list.filter fun a => f a = other)
        = values.flatMap fun other => (list.filter fun a => !decide (f a = value)).filter
          fun a => f a = other := by
      apply List.flatMap_congr
      intro other hother
      have hne : other ≠ value := fun heq => hvalue (heq ▸ hother)
      rw [List.filter_filter]
      apply List.filter_congr
      intro a _
      by_cases heq : f a = other
      · simp [heq, hne]
      · simp [heq]
    rw [List.flatMap_cons, hrest]
    apply List.Perm.trans _ (List.filter_append_perm (fun a => decide (f a = value)) list)
    apply List.Perm.append_left
    apply ih hvalues
    intro a ha
    obtain ⟨ha, hne⟩ := List.mem_filter.mp ha
    exact (List.mem_cons.mp (h a ha)).resolve_left (by simpa using hne)

namespace ShapeInput

/-- Every position belongs to one place. -/
theorem perm_placed (inputs : List ShapeInput) :
  (places.flatMap fun place => (placed place inputs).map Prod.fst).Perm (List.range inputs.length)
  := by
  have hperm := perm_flatMap_filter (fun entry : ShapeInput × ℕ => entry.1.kind?)
    (show places.Nodup by decide) fun entry (_ : entry ∈ inputs.zipIdx) => mem_places entry.1.kind?
  have hmap := hperm.map Prod.snd
  rw [List.map_flatMap, List.zipIdx_map_snd, ← List.range_eq_range'] at hmap
  simp only [placed, placedFrom, List.map_map]
  exact hmap

end ShapeInput

namespace Classification

theorem unclassified_ofInputsFrom (index : ℕ) (inputs : List ShapeInput) :
  (ofInputsFrom index inputs).unclassified = ShapeInput.placedFrom index none inputs
  := by
  induction inputs generalizing index with
  | nil => rfl
  | cons input inputs ih =>
    rw [ofInputsFrom, ShapeInput.placedFrom_cons]
    cases hkind : input.kind? with
    | none => simp [ih]
    | some kind => simp [ih]

end Classification

variable {inputs : List ShapeInput}

/-! ### Sorting -/

theorem unclassified_classify (inputs : List ShapeInput) :
  (classify inputs).unclassified = ShapeInput.placed none inputs
  := Classification.unclassified_ofInputsFrom 0 inputs

/-- The lists hold the shapes that go there. -/
theorem lists_eq_placed (inputs : List ShapeInput) :
  (classify inputs).lists
    = ⟨(ShapeInput.placed (some .point) inputs).map Prod.snd,
      (ShapeInput.placed (some .box) inputs).map Prod.snd,
      (ShapeInput.placed (some .circle) inputs).map Prod.snd,
      (ShapeInput.placed (some .polygon) inputs).map Prod.snd⟩
  := by
  rw [lists_classify, ShapeLists.ofInputs]
  simp only [ShapeInput.placed, ShapeInput.snd_placedFrom]

theorem size_classify (inputs : List ShapeInput) :
  (classify inputs).lists.size + (classify inputs).unclassified.length = inputs.length
  := by
  have hlength := (ShapeInput.perm_placed inputs).length_eq
  simp only [ShapeInput.places, List.flatMap_cons, List.flatMap_nil, List.length_append,
    List.length_map, List.length_nil, List.length_range] at hlength
  simp only [lists_eq_placed, unclassified_classify, ShapeLists.size, List.length_map]
  omega

/-! ### Sorting in strict mode -/

theorem classifyIn_of_nil (mode : Mode) (h : (classify inputs).unclassified = []) :
  classifyIn mode inputs = .ok (classify inputs)
  := by
  cases mode <;> simp only [classifyIn, h]

theorem classifyIn_strict_of_cons {first : ℕ × Value} {rest : List (ℕ × Value)}
    (h : (classify inputs).unclassified = first :: rest) :
  classifyIn .strict inputs = .error (.unclassifiableShape first.1 first.2)
  := by
  simp only [classifyIn, h]

/-- In strict mode shapes are refused for the first of those that show no kind. -/
theorem classifyIn_strict_eq_error_iff {error : BuildError} :
  classifyIn .strict inputs = .error error
    ↔ ∃ index value, error = .unclassifiableShape index value
      ∧ (index, value) ∈ (classify inputs).unclassified
      ∧ ∀ entry ∈ (classify inputs).unclassified, index ≤ entry.1
  := by
  have hascending := ShapeInput.pairwise_placed none inputs
  rw [← unclassified_classify] at hascending
  cases hunclassified : (classify inputs).unclassified with
  | nil => simp [classifyIn_of_nil .strict hunclassified]
  | cons first rest =>
    rw [hunclassified, List.map_cons, List.pairwise_cons, List.forall_mem_map] at hascending
    rw [classifyIn_strict_of_cons hunclassified]
    constructor
    · rintro ⟨⟩
      use first.1, first.2, rfl, List.mem_cons_self
      exact List.forall_mem_cons.mpr
        ⟨Nat.le_refl _, fun entry hentry => Nat.le_of_lt (hascending.1 entry hentry)⟩
    · rintro ⟨index, value, rfl, hmember, hleast⟩
      obtain rfl | hrest := List.mem_cons.mp hmember
      · rfl
      · have hlt := hascending.1 _ hrest
        have hle := hleast first List.mem_cons_self
        omega

/-- In strict mode shapes are sorted if all of them show a kind. -/
theorem classifyIn_strict_eq_ok_iff {classification : Classification} :
  classifyIn .strict inputs = .ok classification
    ↔ (classify inputs).unclassified = [] ∧ classification = classify inputs
  := by
  cases hunclassified : (classify inputs).unclassified with
  | nil => simp [classifyIn_of_nil .strict hunclassified, eq_comm]
  | cons first rest => simp [classifyIn_strict_of_cons hunclassified]

/-! ### The fate of each shape -/

/-- The members of the four lists of a constraint over shapes. -/
def placedMembers (inputs : List ShapeInput) : List (String × Json) :=
  [("point", encodeValues ((ShapeInput.placed (some .point) inputs).map Prod.snd)),
    ("box", encodeValues ((ShapeInput.placed (some .box) inputs).map Prod.snd)),
    ("circle", encodeValues ((ShapeInput.placed (some .circle) inputs).map Prod.snd)),
    ("polygon", encodeValues ((ShapeInput.placed (some .polygon) inputs).map Prod.snd))]

/-- Each list holds the values of the shapes of its kind, in the order of the input, and the
unclassified ones are the others, with their positions.  The kind of a typed shape is its own,
and that of an untyped one is what its fields show.  In strict mode the first of the unclassified
ones is refused, in permissive mode none of them.  Constraints over shapes hold the four lists
under the keys of their kinds. -/
theorem classify_places (inputs : List ShapeInput) :
  ((classify inputs).lists
      = ⟨(ShapeInput.placed (some .point) inputs).map Prod.snd,
        (ShapeInput.placed (some .box) inputs).map Prod.snd,
        (ShapeInput.placed (some .circle) inputs).map Prod.snd,
        (ShapeInput.placed (some .polygon) inputs).map Prod.snd⟩
    ∧ (classify inputs).unclassified = ShapeInput.placed none inputs
    ∧ (∀ shape : Shape, (ShapeInput.typed shape).kind? = some shape.kind)
    ∧ ∀ value : Value, (ShapeInput.raw value).kind? = value.shapeKind?)
  ∧ ((∀ place, ((ShapeInput.placed place inputs).map Prod.fst).Pairwise (· < ·))
    ∧ (ShapeInput.places.flatMap fun place => (ShapeInput.placed place inputs).map Prod.fst).Perm
      (List.range inputs.length)
    ∧ (classify inputs).lists.size + (classify inputs).unclassified.length = inputs.length)
  ∧ ((∀ error, classifyIn .strict inputs = .error error
      ↔ ∃ index value, error = .unclassifiableShape index value
        ∧ (index, value) ∈ (classify inputs).unclassified
        ∧ ∀ entry ∈ (classify inputs).unclassified, index ≤ entry.1)
    ∧ (∀ classification, classifyIn .strict inputs = .ok classification
      ↔ (classify inputs).unclassified = [] ∧ classification = classify inputs)
    ∧ classifyIn .permissive inputs = .ok (classify inputs))
  ∧ (∀ name, (Query.inShapes name inputs).encode
      = Tag.geospatialConstraint.wrap
        (.object (("constraint-name", .string name) :: placedMembers inputs)))
  ∧ ∀ name remark, (Query.inCustomShapes name remark inputs).encode
      = Tag.customConstraint.wrap
        (.object (("constraint-name", .string name)
          :: (remark.toList.map fun value => ("annotation", value.json)) ++ placedMembers inputs))
  := by
  have hmembers : (classify inputs).lists.encodeMembers = placedMembers inputs := by
    rw [lists_eq_placed]
    rfl
  refine ⟨⟨lists_eq_placed inputs, unclassified_classify inputs, fun _ => rfl, fun _ => rfl⟩,
    ⟨fun place => ShapeInput.pairwise_placed place inputs, ShapeInput.perm_placed inputs,
      size_classify inputs⟩,
    ⟨fun _ => classifyIn_strict_eq_error_iff, fun _ => classifyIn_strict_eq_ok_iff,
      classifyIn_permissive inputs⟩, ?_, ?_⟩
  · intro name
    rw [Query.inShapes, Query.encode, hmembers]
  · intro name remark
    rw [Query.inCustomShapes, Query.encode, hmembers]

/-- A polygon without vertices is a polygon, but an edge at zero shows no box. -/
theorem classify_places_mixed :
  let edge : Value := .object [("south", .number (.integer 0 (by decide)))]
  let place : Value := .object [("latitude", .number (.integer 1 (by decide)))]
  let inputs : List ShapeInput := [.typed (.polygon []), .raw edge, .raw place, .raw .null]
  (classify inputs).lists = ⟨[place], [], [], [.object [("point", .array [])]]⟩
    ∧ (classify inputs).unclassified = [(1, edge), (3, .null)]
    ∧ classifyIn .strict inputs = .error (.unclassifiableShape 1 edge)
  := by
  intro edge place inputs
  obtain ⟨⟨hlists, hunclassified, -⟩, -, ⟨hstrict, -⟩, -⟩ := classify_places inputs
  have hplaced : (classify inputs).unclassified = [(1, edge), (3, .null)] := by
    rw [hunclassified]
    rfl
  refine ⟨hlists, hplaced, (hstrict _).mpr ⟨1, edge, rfl, ?_, ?_⟩⟩
  · simp [hplaced]
  · simp [hplaced]

end StructuredQuery
