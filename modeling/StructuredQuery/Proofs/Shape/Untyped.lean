import StructuredQuery.Proofs.Classification.Positions
import StructuredQuery.Proofs.Config.Modes
import StructuredQuery.Proofs.Query.Same
import StructuredQuery.Proofs.Shape

/-!
# Typed shapes in untyped form

The value of a shape need not show the kind of the shape, as one of its numbers is tested: that
of a point or a box shows nothing if this number is zero or no number at all, and that of such a
circle shows a polygon.  So a list of shapes is sorted alike in both forms just if none of the
numbers is of that sort: one misfiled shape makes the list of its own kind shorter, and no other
shape comes in for it.
-/

namespace StructuredQuery

/-! ### Tested numbers -/

namespace Double

/-- The double is a number other than zero. -/
def IsPlain (x : Double) : Prop :=
  x.IsFinite ∧ x.isZero = false

instance : DecidablePred IsPlain :=
  fun _ => inferInstanceAs (Decidable (_ ∧ _))

theorem not_isPlain_iff {x : Double} :
  ¬x.IsPlain ↔ (∃ negative, x = .zero negative) ∨ x = .nan ∨ ∃ negative, x = .infinite negative
  := by
  cases x with
  | finite negative significand exponent canonical =>
    simp only [IsPlain, IsFinite, isZero, true_and, decide_eq_false_iff_not, not_not, zero,
      finite.injEq, reduceCtorEq, exists_false, or_false]
    constructor
    · rintro rfl
      refine ⟨negative, rfl, rfl, ?_⟩
      rcases canonical with ⟨h, -⟩ | ⟨-, h⟩
      · omega
      · exact h
    · rintro ⟨-, -, h, -⟩
      exact h
  | infinite negative => simp [IsPlain, IsFinite, zero]
  | nan => simp [IsPlain, IsFinite, zero]

end Double

namespace Shape

/-- The number of a shape that is tested in untyped form. -/
def tested? : Shape → Option Double
  | point place => some place.latitude
  | box south .. => some south
  | circle radius _ => some radius
  | polygon _ => none

/-- The number that is tested, if there is one, is a number other than zero. -/
def IsPlain (shape : Shape) : Prop :=
  ∀ x ∈ shape.tested?, x.IsPlain

instance : DecidablePred IsPlain :=
  fun shape => inferInstanceAs (Decidable (∀ x ∈ shape.tested?, x.IsPlain))

/-- The kind that the value of a shape shows. -/
def shownKind? (shape : Shape) : Option ShapeKind :=
  if shape.IsPlain then some shape.kind
  else match shape.kind with
    | .point | .box => none
    | .circle | .polygon => some .polygon

end Shape

/-! ### What a value shows -/

@[simp]
theorem Value.isTruthy_double (x : Double) :
  isTruthy (some (.double x)) = decide x.IsPlain
  := by
  rw [double]
  split
  · next h => simp [isTruthy, view, number, Number.isZero, Double.IsPlain, h]
  · next h => simp [isTruthy, null, view, Double.IsPlain, h]

@[simp]
theorem Value.isTruthy_none :
  ¬isTruthy none
  := Bool.false_ne_true

@[simp]
theorem Value.isTruthy_object (fields : List (String × Value)) :
  isTruthy (some (.object fields))
  := rfl

@[simp]
theorem Value.isTruthy_array (items : List Value) :
  isTruthy (some (.array items))
  := by
  rw [isTruthy, view_array]

namespace Shape

theorem shapeKind?_toValue (shape : Shape) :
  shape.toValue.shapeKind? = shape.shownKind?
  := by
  cases shape <;>
    simp [Value.shapeKind?, toValue, Point.toValue, Value.get?_object, List.lookup_cons, shownKind?,
      IsPlain, tested?, kind]

theorem isPlain_of_polygon {shape : Shape} (h : shape.kind = .polygon) :
  shape.IsPlain
  := by
  cases shape with
  | polygon vertices =>
    intro x hx
    cases hx
  | _ => cases h

/-- Only polygons gain shapes of another kind. -/
theorem shownKind?_eq_some_iff {kind : ShapeKind} (h : kind ≠ .polygon) {shape : Shape} :
  shape.shownKind? = some kind ↔ shape.kind = kind ∧ shape.IsPlain
  := by
  rw [shownKind?]
  split
  · next hplain => rw [Option.some_inj, and_iff_left hplain]
  · next hplain =>
    apply iff_of_false _ fun hboth => hplain hboth.2
    cases shape.kind with
    | point | box => exact Option.some_ne_none kind ∘ Eq.symm
    | circle | polygon => exact fun heq => h (Option.some.inj heq).symm

/-! ### Both forms of a list -/

/-- Shapes in untyped form. -/
def untyped (shapes : List Shape) : List ShapeInput :=
  shapes.map fun shape => .raw shape.toValue

/-- The values of the shapes whose values show a kind, in order. -/
def showing (kind : ShapeKind) (shapes : List Shape) : List Value :=
  (shapes.filter fun shape => shape.shownKind? = some kind).map toValue

/-- The lists of the shapes that show each kind. -/
def shownLists (shapes : List Shape) : ShapeLists :=
  ⟨showing .point shapes, showing .box shapes, showing .circle shapes, showing .polygon shapes⟩

theorem ofKind_typed (kind : ShapeKind) (shapes : List Shape) :
  ShapeInput.ofKind kind (shapes.map .typed)
    = (shapes.filter fun shape => shape.kind = kind).map toValue
  := by
  simp [ShapeInput.ofKind, ShapeInput.kind?, ShapeInput.toValue, List.filter_map,
    Function.comp_def]

theorem ofKind_untyped (kind : ShapeKind) (shapes : List Shape) :
  ShapeInput.ofKind kind (untyped shapes) = showing kind shapes
  := by
  simp [untyped, showing, ShapeInput.ofKind, ShapeInput.kind?, ShapeInput.toValue, List.filter_map,
    shapeKind?_toValue, Function.comp_def]

theorem lists_untyped (shapes : List Shape) :
  (classify (untyped shapes)).lists = shownLists shapes
  := by
  simp only [lists_classify, ShapeLists.ofInputs, ofKind_untyped, shownLists]

variable {shapes : List Shape}

theorem ofKind_untyped_of_isPlain (h : ∀ shape ∈ shapes, shape.IsPlain) (kind : ShapeKind) :
  ShapeInput.ofKind kind (untyped shapes) = ShapeInput.ofKind kind (shapes.map .typed)
  := by
  rw [ofKind_untyped, ofKind_typed, showing]
  congr 1
  apply List.filter_congr
  intro shape hshape
  simp [shownKind?, h shape hshape]

/-- A shape that is not plain is missing from the list of its kind, and nothing replaces it. -/
theorem isPlain_of_length {shape : Shape} (hshape : shape ∈ shapes)
    (hkind : shape.kind ≠ .polygon)
    (h : (ShapeInput.ofKind shape.kind (shapes.map .typed)).length
      = (ShapeInput.ofKind shape.kind (untyped shapes)).length) :
  shape.IsPlain
  := by
  have hfilter : (shapes.filter fun other => other.shownKind? = some shape.kind)
      = (shapes.filter fun other => other.kind = shape.kind).filter fun other => other.IsPlain := by
    rw [List.filter_filter]
    apply List.filter_congr
    intro other _
    simp [shownKind?_eq_some_iff hkind, and_comm]
  rw [ofKind_typed, ofKind_untyped, showing, List.length_map, List.length_map, hfilter,
    eq_comm, List.length_filter_eq_length_iff] at h
  apply of_decide_eq_true
  apply h
  exact List.mem_filter.mpr ⟨hshape, decide_eq_true rfl⟩

/-- Shapes that are sorted alike in both forms, up to the equality of values, are plain. -/
theorem isPlain_of_same
    (h : (classify (shapes.map .typed)).lists.same (classify (untyped shapes)).lists) :
  ∀ shape ∈ shapes, shape.IsPlain
  := by
  simp only [lists_classify, ShapeLists.ofInputs, ShapeLists.same, Bool.and_eq_true] at h
  obtain ⟨⟨⟨hpoints, hboxes⟩, hcircles⟩, -⟩ := h
  intro shape hshape
  by_cases hpolygon : shape.kind = .polygon
  · apply isPlain_of_polygon hpolygon
  · apply isPlain_of_length hshape hpolygon
    apply Value.length_eq_of_sameList
    cases hkind : shape.kind with
    | point => exact hpoints
    | box => exact hboxes
    | circle => exact hcircles
    | polygon => exact absurd hkind hpolygon

theorem lists_eq_of_isPlain (h : ∀ shape ∈ shapes, shape.IsPlain) :
  (classify (shapes.map .typed)).lists = (classify (untyped shapes)).lists
  := by
  simp only [lists_classify, ShapeLists.ofInputs, ofKind_untyped_of_isPlain h]

/-! ### Modes -/

theorem mem_unclassified_untyped_iff {index : ℕ} {value : Value} :
  (index, value) ∈ (classify (untyped shapes)).unclassified
    ↔ ∃ shape, shapes[index]? = some shape ∧ shape.shownKind? = none ∧ value = shape.toValue
  := by
  rw [unclassified_classify, ShapeInput.mem_placed_iff, untyped]
  simp only [List.getElem?_map, Option.map_eq_some_iff]
  constructor
  · rintro ⟨_, ⟨shape, hshape, rfl⟩, hkind, rfl⟩
    exact ⟨shape, hshape, shape.shapeKind?_toValue.symm.trans hkind, rfl⟩
  · rintro ⟨shape, hshape, hkind, rfl⟩
    exact ⟨_, ⟨shape, hshape, rfl⟩, shape.shapeKind?_toValue.trans hkind, rfl⟩

theorem unclassified_untyped_eq_nil_iff :
  (classify (untyped shapes)).unclassified = [] ↔ ∀ shape ∈ shapes, shape.shownKind? ≠ none
  := by
  rw [List.eq_nil_iff_forall_not_mem]
  constructor
  · intro h shape hshape hkind
    obtain ⟨index, hindex⟩ := List.getElem?_of_mem hshape
    exact h (index, shape.toValue) (mem_unclassified_untyped_iff.mpr ⟨shape, hindex, hkind, rfl⟩)
  · rintro h ⟨index, value⟩ hentry
    obtain ⟨shape, hindex, hkind, -⟩ := mem_unclassified_untyped_iff.mp hentry
    exact h shape (List.mem_of_getElem? hindex) hkind

/-- The first shape that shows nothing is refused. -/
theorem classifyIn_strict_untyped_eq_error_iff {error : BuildError} :
  classifyIn .strict (untyped shapes) = .error error
    ↔ ∃ index shape, shapes[index]? = some shape ∧ shape.shownKind? = none
      ∧ (∀ earlier < index, ∀ other, shapes[earlier]? = some other → other.shownKind? ≠ none)
      ∧ error = .unclassifiableShape index shape.toValue
  := by
  rw [classifyIn_strict_eq_error_iff]
  constructor
  · rintro ⟨index, value, rfl, hentry, hleast⟩
    obtain ⟨shape, hshape, hkind, rfl⟩ := mem_unclassified_untyped_iff.mp hentry
    refine ⟨index, shape, hshape, hkind, ?_, rfl⟩
    intro earlier hearlier other hother hnone
    have hle := hleast (earlier, other.toValue)
      (mem_unclassified_untyped_iff.mpr ⟨other, hother, hnone, rfl⟩)
    exact absurd hearlier (Nat.not_lt.mpr hle)
  · rintro ⟨index, shape, hshape, hkind, hfirst, rfl⟩
    refine ⟨index, shape.toValue, rfl,
      mem_unclassified_untyped_iff.mpr ⟨shape, hshape, hkind, rfl⟩, ?_⟩
    rintro ⟨position, value⟩ hentry
    obtain ⟨other, hother, hnone, -⟩ := mem_unclassified_untyped_iff.mp hentry
    by_contra hlt
    exact hfirst position (Nat.not_le.mp hlt) other hother hnone

/-- A constraint over shapes is the same in typed and in untyped form, by the equality of data as
by that of numbers, just if every number that is tested is one other than zero.  In untyped form
each list holds the shapes that show its kind.  What shows no kind is left out, or refused in
strict mode, for the first of it. -/
theorem inShapes_untyped (name : String) (shapes : List Shape) :
  (((Query.inShapes name (shapes.map .typed)).same (Query.inShapes name (untyped shapes))
      ↔ ∀ shape ∈ shapes, shape.IsPlain)
    ∧ (Query.inShapes name (shapes.map .typed) = Query.inShapes name (untyped shapes)
      ↔ ∀ shape ∈ shapes, shape.IsPlain)
    ∧ ∀ x : Double, ¬x.IsPlain
      ↔ (∃ negative, x = .zero negative) ∨ x = .nan ∨ ∃ negative, x = .infinite negative)
  ∧ (∀ shape ∈ shapes, shape.toValue.shapeKind? = shape.shownKind?)
  ∧ (∀ config : Config, config.shapes = .permissive →
    config.inShapes name (untyped shapes) = .ok (.geospatialConstraint name (shownLists shapes)))
  ∧ ∀ config : Config, config.shapes = .strict →
    (∀ query, config.inShapes name (untyped shapes) = .ok query
      ↔ (∀ shape ∈ shapes, shape.shownKind? ≠ none)
        ∧ query = .geospatialConstraint name (shownLists shapes))
    ∧ ∀ error, config.inShapes name (untyped shapes) = .error error
      ↔ ∃ index shape, shapes[index]? = some shape ∧ shape.shownKind? = none
        ∧ (∀ earlier < index, ∀ other, shapes[earlier]? = some other → other.shownKind? ≠ none)
        ∧ error = .unclassifiableShape index shape.toValue
  := by
  refine ⟨⟨?_, ?_, fun _ => Double.not_isPlain_iff⟩, fun shape _ => shape.shapeKind?_toValue,
    ?_, ?_⟩
  · rw [Query.inShapes, Query.inShapes, Query.same, decide_eq_true rfl, Bool.true_and]
    use isPlain_of_same
    intro h
    rw [lists_eq_of_isPlain h]
    apply ShapeLists.same_refl
  · rw [Query.inShapes, Query.inShapes, Query.geospatialConstraint.injEq, and_iff_right rfl]
    use fun h => isPlain_of_same (h ▸ ShapeLists.same_refl _), lists_eq_of_isPlain
  · intro config hmode
    rw [Config.inShapes_permissive hmode, Query.inShapes, lists_untyped]
  · intro config hmode
    constructor
    · intro query
      rw [Config.inShapes_eq_ok_iff, hmode]
      simp only [classifyIn_strict_eq_ok_iff, unclassified_untyped_eq_nil_iff, and_assoc,
        exists_and_left, exists_eq_left, lists_untyped]
    · intro error
      rw [Config.inShapes_eq_error_iff, hmode, classifyIn_strict_untyped_eq_error_iff]

/-- A circle of radius zero is taken for a polygon even in strict mode, which refuses the box at
zero after it. -/
theorem inShapes_untyped_circle :
  let strict : Config := { Config.permissive with shapes := .strict }
  let circle : Shape := .circle (.zero false) ⟨.zero false, .zero false⟩
  let edge : Shape := .box (.zero true) (.ofInt 1) (.ofInt 2) (.ofInt 3)
  strict.inShapes "where" (untyped [circle])
      = .ok (.geospatialConstraint "where" ⟨[], [], [], [circle.toValue]⟩)
    ∧ strict.inShapes "where" (untyped [circle, edge])
      = .error (.unclassifiableShape 1 edge.toValue)
    ∧ Config.permissive.inShapes "where" (untyped [circle, edge])
      = .ok (.geospatialConstraint "where" ⟨[], [], [], [circle.toValue]⟩)
  := by
  intro strict circle edge
  obtain ⟨-, -, -, hcircle⟩ := inShapes_untyped "where" [circle]
  obtain ⟨-, -, hpermissive, hboth⟩ := inShapes_untyped "where" [circle, edge]
  refine ⟨((hcircle strict rfl).1 _).mpr ⟨?_, rfl⟩, ((hboth strict rfl).2 _).mpr ?_,
    hpermissive Config.permissive rfl⟩
  · decide
  · refine ⟨1, edge, rfl, rfl, ?_, rfl⟩
    intro earlier hearlier other hother
    obtain rfl : earlier = 0 := Nat.lt_one_iff.mp hearlier
    obtain rfl : circle = other := Option.some.inj hother
    decide

end Shape

end StructuredQuery
