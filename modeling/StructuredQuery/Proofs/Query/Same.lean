import Mathlib.Tactic.Common
import StructuredQuery.Query.Same

/-!
# Equality of data

Data is equal to itself, as a double in a tree is always a number, and lists that are equal have
the same length.
-/

namespace StructuredQuery

theorem Double.same_refl {x : Double} (h : x.IsFinite) :
  x.same x
  := by
  cases x with
  | finite negative significand exponent canonical => simp [same, isNaN]
  | _ => exact False.elim h

theorem Number.same_refl (number : Number) :
  number.same number
  := by
  cases number with
  | integer value fits => simp [same]
  | float value finite => apply Double.same_refl finite

namespace Json

mutual

/-- A tree is equal to itself. -/
theorem same_refl : (json : Json) → json.same json
  | .null => rfl
  | .bool _ | .string _ => by simp [same]
  | .number value => value.same_refl
  | .array items => sameItems_refl items
  | .object members => sameMembers_refl members

theorem sameItems_refl : (items : List Json) → sameItems items items
  | [] => rfl
  | item :: items => by rw [sameItems, same_refl item, sameItems_refl items, Bool.and_self]

theorem sameMembers_refl : (members : List (String × Json)) → sameMembers members members
  | [] => rfl
  | (key, value) :: members => by
    simp [sameMembers, same_refl value, sameMembers_refl members]

end

end Json

namespace Value

theorem sameList_refl (values : List Value) :
  sameList values values
  := by
  induction values with
  | nil => rfl
  | cons value values ih => rw [sameList, same, Json.same_refl, ih, Bool.and_self]

theorem length_eq_of_sameList {values others : List Value} (h : sameList values others) :
  values.length = others.length
  := by
  induction values generalizing others with
  | nil =>
    cases others with
    | nil => rfl
    | cons other others => cases h
  | cons value values ih =>
    cases others with
    | nil => cases h
    | cons other others =>
      rw [sameList, Bool.and_eq_true] at h
      rw [List.length_cons, List.length_cons, ih h.2]

end Value

theorem ShapeLists.same_refl (lists : ShapeLists) :
  lists.same lists
  := by
  simp only [same, Value.sameList_refl, Bool.and_self]

end StructuredQuery
