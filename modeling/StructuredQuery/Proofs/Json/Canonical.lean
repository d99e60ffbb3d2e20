import Mathlib.Tactic.Common
import StructuredQuery.Value

/-!
# Canonical trees

A canonical tree is its own canonical form, so a value is read back from its tree.
-/

namespace StructuredQuery

namespace Json

theorem ofDouble_eq_null_iff {x : Double} :
  ofDouble x = .null ↔ ¬x.IsFinite
  := by
  rw [ofDouble]
  split
  · next h => exact iff_of_false Json.noConfusion (not_not_intro h)
  · next h => exact iff_of_true rfl h

theorem isCanonical_ofDouble (x : Double) :
  (ofDouble x).IsCanonical
  := by
  rw [ofDouble]
  split <;> trivial

theorem depth_ofDouble (x : Double) :
  (ofDouble x).depth = 0
  := by
  rw [ofDouble]
  split <;> rfl

/-- Sorted members have distinct keys. -/
theorem Sorted.nodup {members : List (String × Json)} (h : Sorted members) :
  (members.map Prod.fst).Nodup
  := h.imp String.ne_of_lt

/-- A member whose key comes after all others goes to the end. -/
theorem insertMember_of_forall_lt {key : String} {value : Json} {members : List (String × Json)}
    (h : ∀ member ∈ members, member.1 < key) :
  insertMember key value members = members ++ [(key, value)]
  := by
  induction members with
  | nil => rfl
  | cons member members ih =>
    obtain ⟨hlt, hrest⟩ := List.forall_mem_cons.mp h
    rw [insertMember, if_neg (String.lt_asymm hlt), if_pos hlt, ih hrest]
    rfl

/-- Sorted members stay as they are. -/
theorem sortMembers_of_sorted {members : List (String × Json)} (h : Sorted members) :
  sortMembers members = members
  := by
  suffices ∀ before, Sorted (before ++ members) →
      members.foldl (fun sorted member => insertMember member.1 member.2 sorted) before
        = before ++ members by
    exact this [] h
  clear h
  induction members with
  | nil => simp
  | cons member members ih =>
    intro before hsorted
    have hlt : ∀ other ∈ before, other.1 < member.1 := by
      intro other hother
      rw [Sorted, List.map_append, List.pairwise_append] at hsorted
      apply hsorted.2.2 other.1 (List.mem_map_of_mem hother) member.1
      simp
    rw [List.foldl_cons, insertMember_of_forall_lt hlt, ih, List.append_assoc]
    · rfl
    · simpa using hsorted

theorem canonicalItems_eq_map (items : List Json) :
  canonicalItems items = items.map canonical
  := by
  induction items with
  | nil => rfl
  | cons item items ih => rw [canonicalItems, ih, List.map_cons]

theorem canonicalMembers_eq_map (members : List (String × Json)) :
  canonicalMembers members = members.map (Prod.map id canonical)
  := by
  induction members with
  | nil => rfl
  | cons member members ih =>
    rw [canonicalMembers, ih]
    rfl

mutual

/-- A canonical tree is its own canonical form. -/
theorem canonical_of_isCanonical : (json : Json) → json.IsCanonical → json.canonical = json
  | .null, _ | .bool _, _ | .number _, _ | .string _, _ => rfl
  | .array items, h => by
    rw [canonical, canonicalItems_of_canonicalItems items h]
  | .object members, h => by
    rw [canonical, canonicalMembers_of_canonicalMembers members h.2, sortMembers_of_sorted h.1]

theorem canonicalItems_of_canonicalItems :
    (items : List Json) → CanonicalItems items → canonicalItems items = items
  | [], _ => rfl
  | item :: items, h => by
    rw [canonicalItems, canonical_of_isCanonical item h.1,
      canonicalItems_of_canonicalItems items h.2]

theorem canonicalMembers_of_canonicalMembers :
    (members : List (String × Json)) → CanonicalMembers members →
      canonicalMembers members = members
  | [], _ => rfl
  | (_, value) :: members, h => by
    rw [canonicalMembers, canonical_of_isCanonical value h.1,
      canonicalMembers_of_canonicalMembers members h.2]

end

end Json

/-- A value is read back from its tree. -/
theorem Value.ofJson_json (value : Value) :
  ofJson value.json = value
  := by
  cases value with
  | mk json h => simp only [ofJson, Json.canonical_of_isCanonical json h]

end StructuredQuery
