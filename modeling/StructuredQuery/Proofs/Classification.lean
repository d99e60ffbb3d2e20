import Mathlib.Tactic.Common
import StructuredQuery.Classification

/-!
# Sorted shapes

Each of the four lists holds the shapes of its kind in the order of the input, so that
sorting the lists again, one after the other, gives them back.
-/

namespace StructuredQuery

/-- The values of those shapes that are of a kind, in order. -/
def ShapeInput.ofKind (kind : ShapeKind) (inputs : List ShapeInput) : List Value :=
  (inputs.filter fun input => input.kind? = some kind).map toValue

namespace ShapeLists

/-- The shapes of each kind. -/
def ofInputs (inputs : List ShapeInput) : ShapeLists :=
  ⟨ShapeInput.ofKind .point inputs, ShapeInput.ofKind .box inputs,
    ShapeInput.ofKind .circle inputs, ShapeInput.ofKind .polygon inputs⟩

/-- The values of the lists, one list after the other. -/
def all (lists : ShapeLists) : List Value :=
  lists.points ++ lists.boxes ++ lists.circles ++ lists.polygons

/-- Every value shows the kind of the list that it stands in. -/
structure Sorted (lists : ShapeLists) : Prop where
  points : ∀ value ∈ lists.points, value.shapeKind? = some .point
  boxes : ∀ value ∈ lists.boxes, value.shapeKind? = some .box
  circles : ∀ value ∈ lists.circles, value.shapeKind? = some .circle
  polygons : ∀ value ∈ lists.polygons, value.shapeKind? = some .polygon

end ShapeLists

namespace Classification

theorem lists_ofInputsFrom (index : Nat) (inputs : List ShapeInput) :
  (ofInputsFrom index inputs).lists = .ofInputs inputs
  := by
  induction inputs generalizing index with
  | nil => rfl
  | cons input inputs ih =>
    rw [ofInputsFrom]
    cases hkind : input.kind? with
    | none => simp [ih, ShapeLists.ofInputs, ShapeInput.ofKind, hkind]
    | some kind =>
      cases kind <;>
        simp [ih, ShapeLists.cons, ShapeLists.ofInputs, ShapeInput.ofKind, hkind]

end Classification

theorem lists_classify (inputs : List ShapeInput) :
  (classify inputs).lists = .ofInputs inputs
  := Classification.lists_ofInputsFrom 0 inputs

/-! ### Untyped shapes -/

/-- Of values that all show one kind, those of a kind are all or none of them. -/
theorem Value.filter_shapeKind? {own : ShapeKind} {values : List Value}
    (h : ∀ value ∈ values, value.shapeKind? = some own) (kind : ShapeKind) :
  (values.filter fun value => value.shapeKind? = some kind) = if own = kind then values else []
  := by
  split
  · next heq =>
    subst heq
    apply List.filter_eq_self.mpr
    intro value hvalue
    simp [h value hvalue]
  · next hne =>
    apply List.filter_eq_nil_iff.mpr
    intro value hvalue
    simp [h value hvalue, hne]

namespace ShapeInput

/-- The untyped shapes of a kind are the values that show it. -/
theorem ofKind_raw (kind : ShapeKind) (values : List Value) :
  ofKind kind (values.map raw) = values.filter fun value => value.shapeKind? = some kind
  := by
  simp only [ofKind, List.filter_map, Function.comp_def, kind?, List.map_map, toValue]
  apply List.map_id'

end ShapeInput

namespace ShapeLists

theorem sorted_ofInputs_raw (values : List Value) :
  (ofInputs (values.map .raw)).Sorted
  := by
  have hkind (kind : ShapeKind) :
      ∀ value ∈ ShapeInput.ofKind kind (values.map .raw), value.shapeKind? = some kind := by
    intro value hvalue
    rw [ShapeInput.ofKind_raw] at hvalue
    simpa using (List.mem_filter.mp hvalue).2
  constructor <;> apply hkind

/-- Sorted lists that are put together and sorted again are the same lists. -/
theorem ofInputs_all {lists : ShapeLists} (h : lists.Sorted) :
  ofInputs (lists.all.map .raw) = lists
  := by
  rw [ofInputs]
  simp only [ShapeInput.ofKind_raw, all, List.filter_append, Value.filter_shapeKind? h.points,
    Value.filter_shapeKind? h.boxes, Value.filter_shapeKind? h.circles,
    Value.filter_shapeKind? h.polygons]
  simp

end ShapeLists

end StructuredQuery
