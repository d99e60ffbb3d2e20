import Mathlib.Data.List.Basic
import StructuredQuery.Proofs.Json.Keys
import StructuredQuery.Proofs.Json.Order

/-!
# Values and their views

What a value shows when it is opened, for the values that are made from parts.
-/

namespace StructuredQuery

namespace Value

theorem ext_json {a b : Value} (h : a.json = b.json) :
  a = b
  := by
  cases a
  cases b
  simp_all

@[simp]
theorem json_double (x : Double) :
  (double x).json = .ofDouble x
  := by
  rw [double, Json.ofDouble]
  split <;> rfl

@[simp]
theorem view_null :
  null.view = .null
  := rfl

@[simp]
theorem view_string (text : String) :
  (string text).view = .string text
  := rfl

@[simp]
theorem view_array (items : List Value) :
  (array items).view = .array items
  := by
  simp only [array, view, ofItems, View.array.injEq]
  apply List.ext_getElem
  · simp
  · intro i _ _
    simp

theorem eq_null_of_view {value : Value} (h : value.view = .null) :
  value = .null
  := by
  obtain ⟨json, hcanonical⟩ := value
  cases json with
  | null => rfl
  | _ => cases h

theorem eq_string_of_view {value : Value} {text : String} (h : value.view = .string text) :
  value = .string text
  := by
  obtain ⟨json, hcanonical⟩ := value
  cases json with
  | string own =>
    cases h
    rfl
  | _ => cases h

/-- A value that shows items is the list of them. -/
theorem eq_array_of_view {value : Value} {items : List Value} (h : value.view = .array items) :
  value = .array items
  := by
  obtain ⟨json, hcanonical⟩ := value
  cases json with
  | array trees =>
    cases h
    apply ext_json
    simp only [array, ofItems, List.map_map, Function.comp_def, List.attach_map_subtype_val]
  | _ => cases h

/-! ### Values of trees -/

theorem ofJson_ofDouble (x : Double) :
  ofJson (.ofDouble x) = .double x
  := by
  apply ext_json
  rw [json_double]
  apply Json.canonical_of_isCanonical _ (Json.isCanonical_ofDouble x)

theorem ofJson_array (items : List Json) :
  ofJson (.array items) = .array (items.map ofJson)
  := by
  apply ext_json
  simp only [ofJson, Json.canonical, Json.canonicalItems_eq_map, array, List.map_map,
    Function.comp_def]

theorem ofJson_object (members : List (String × Json)) :
  ofJson (.object members) = .object (members.map fun member => (member.1, ofJson member.2))
  := by
  apply ext_json
  simp only [ofJson, Json.canonical, Json.canonicalMembers_eq_map, object, List.map_map]
  rfl

/-! ### Fields -/

/-- Fields as the members of a tree. -/
def members (fields : List (String × Value)) : List (String × Json) :=
  fields.map fun field => (field.1, field.2.json)

theorem members_injective :
  Function.Injective members
  := by
  apply List.map_injective_iff.mpr
  intro field other h
  obtain ⟨hkey, hjson⟩ := Prod.mk.inj h
  exact Prod.ext hkey (ext_json hjson)

theorem members_ofMembers (trees : List (String × Json)) (h : Json.CanonicalMembers trees) :
  members (ofMembers trees h) = trees
  := by
  simp only [members, ofMembers, List.map_map, Function.comp_def]
  apply List.attach_map_subtype_val

/-- A value has those fields that its tree has. -/
theorem fields?_eq_some_iff {value : Value} {fields : List (String × Value)} :
  value.fields? = some fields ↔ value.json = .object (members fields)
  := by
  obtain ⟨json, hcanonical⟩ := value
  cases json with
  | object trees =>
    have hfields : fields? ⟨.object trees, hcanonical⟩ = some (ofMembers trees hcanonical.2) := rfl
    rw [hfields, Option.some_inj, ← members_injective.eq_iff, members_ofMembers, Json.object.injEq]
  | _ => simp [fields?, view]

theorem lookup_members (key : String) (fields : List (String × Value)) :
  (members fields).lookup key = (fields.lookup key).map json
  := by
  induction fields with
  | nil => rfl
  | cons field fields ih =>
    obtain ⟨own, value⟩ := field
    simp only [members, List.map_cons, List.lookup_cons] at ih ⊢
    split
    · rfl
    · exact ih

theorem get?_of_fields? {value : Value} {fields : List (String × Value)}
    (h : value.fields? = some fields) (key : String) :
  value.get? key = fields.lookup key
  := by
  rw [get?, h]
  rfl

/-- A value that has a field is an object. -/
theorem exists_fields?_of_get? {value field : Value} {key : String}
    (h : value.get? key = some field) :
  ∃ fields, value.fields? = some fields ∧ fields.lookup key = some field
  := Option.bind_eq_some_iff.mp h

theorem sorted_members {value : Value} {fields : List (String × Value)}
    (h : value.fields? = some fields) :
  Json.Sorted (members fields)
  := by
  have hcanonical := value.isCanonical
  rw [fields?_eq_some_iff.mp h] at hcanonical
  apply hcanonical.1

/-- An object is known by its fields. -/
theorem eq_of_fields? {value other : Value} {fields : List (String × Value)}
    (h : value.fields? = some fields) (hother : other.fields? = some fields) :
  value = other
  := by
  apply ext_json
  rw [fields?_eq_some_iff.mp h, fields?_eq_some_iff.mp hother]

/-- Sorted fields are those of an object. -/
theorem fields?_ofJson {fields : List (String × Value)} (h : Json.Sorted (members fields)) :
  (ofJson (.object (members fields))).fields? = some fields
  := by
  apply fields?_eq_some_iff.mpr
  apply Json.canonical_of_isCanonical
  use h
  rw [Json.canonicalMembers_iff, members, List.forall_mem_map]
  exact fun field _ => field.2.isCanonical

/-- The field of a value is what stands under the key in its tree. -/
theorem map_json_get? {value : Value} {trees : List (String × Json)}
    (h : value.json = .object trees) (key : String) :
  (value.get? key).map json = trees.lookup key
  := by
  obtain ⟨_, hcanonical⟩ := value
  subst h
  have hfields := members_ofMembers trees hcanonical.2
  rw [get?_of_fields? (fields?_eq_some_iff.mpr (congrArg Json.object hfields.symm)),
    ← lookup_members, hfields]

/-- The field of an object is what was given under the key, if no key was given twice. -/
theorem get?_object {fields : List (String × Value)} (h : (fields.map Prod.fst).Nodup)
    (key : String) :
  (object fields).get? key = fields.lookup key
  := by
  have hkeys : ((members fields).map Prod.fst).Nodup := by
    rw [members, List.map_map]
    exact h
  have hperm := Json.perm_sortMembers hkeys
  apply Option.map_injective (fun _ _ => ext_json)
  rw [map_json_get? rfl, ← lookup_members]
  apply Json.lookup_perm hperm
  exact (hperm.map Prod.fst).nodup_iff.mpr hkeys

/-! ### Arguments -/

@[simp]
theorem elements_array (items : List Value) :
  (array items).elements = items
  := by
  rw [elements, view_array]

@[simp]
theorem given_array (items : List Value) :
  (array items).given = items
  := by
  rw [given, view_array]
  apply elements_array

/-- A value that is neither null nor an array is given for itself. -/
theorem given_of_single {value : Value} (hnull : value ≠ .null)
    (harray : ∀ items, value ≠ .array items) :
  value.given = [value]
  := by
  rw [given]
  split
  · next h => exact absurd (eq_null_of_view h) hnull
  · rw [elements]
    split
    · next items h => exact absurd (eq_array_of_view h) (harray items)
    · rfl

end Value

end StructuredQuery
