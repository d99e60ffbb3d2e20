import Mathlib.Data.List.Nodup
import Mathlib.Tactic.Common
import StructuredQuery.Json.Document

/-!
# Trees without repeated keys

`Json.Unrepeated` says that no object in a tree has two members of one key.  What stands
under a key of such an object is then found by the key alone, in whatever order they come.
-/

namespace StructuredQuery

namespace Json

mutual

/-- No object in the tree has two members of one key. -/
def Unrepeated : Json → Prop
  | .array items => UnrepeatedItems items
  | .object members => (members.map Prod.fst).Nodup ∧ UnrepeatedMembers members
  | _ => True
termination_by structural json => json

/-- No object in the items has two members of one key. -/
def UnrepeatedItems : List Json → Prop
  | [] => True
  | item :: items => item.Unrepeated ∧ UnrepeatedItems items
termination_by structural items => items

/-- No object in the values of the members has two members of one key. -/
def UnrepeatedMembers : List (String × Json) → Prop
  | [] => True
  | (_, value) :: members => value.Unrepeated ∧ UnrepeatedMembers members
termination_by structural members => members

end

theorem unrepeatedItems_iff {items : List Json} :
  UnrepeatedItems items ↔ ∀ item ∈ items, item.Unrepeated
  := by
  induction items with
  | nil => simp [UnrepeatedItems]
  | cons item items ih => rw [UnrepeatedItems, ih, List.forall_mem_cons]

theorem unrepeatedMembers_iff {members : List (String × Json)} :
  UnrepeatedMembers members ↔ ∀ member ∈ members, member.2.Unrepeated
  := by
  induction members with
  | nil => simp [UnrepeatedMembers]
  | cons member members ih => rw [UnrepeatedMembers, ih, List.forall_mem_cons]

/-! ### Members by their keys -/

section

variable {key : String} {members : List (String × Json)}

theorem lookup_cons_of_ne {own : String} (h : own ≠ key) (json : Json)
    (members : List (String × Json)) :
  List.lookup key ((own, json) :: members) = members.lookup key
  := by
  rw [List.lookup_cons, beq_eq_false_iff_ne.mpr h.symm]

theorem ne_of_nodup {member other : String × Json}
    (h : ((member :: members).map Prod.fst).Nodup) (hother : other ∈ members) :
  other.1 ≠ member.1
  := by
  intro heq
  apply (List.nodup_cons.mp h).1
  rw [← heq]
  apply List.mem_map_of_mem hother

theorem mem_of_lookup {json : Json} (h : members.lookup key = some json) :
  (key, json) ∈ members
  := by
  obtain ⟨before, after, rfl, -⟩ := List.lookup_eq_some_iff.mp h
  simp

/-- Where no key comes twice, a member is found under its key. -/
theorem lookup_eq_some_iff (h : (members.map Prod.fst).Nodup) {json : Json} :
  members.lookup key = some json ↔ (key, json) ∈ members
  := by
  use mem_of_lookup
  intro hmember
  obtain ⟨before, after, rfl⟩ := List.append_of_mem hmember
  rw [List.map_append, List.nodup_append] at h
  refine List.lookup_eq_some_iff.mpr ⟨before, after, rfl, fun member hbefore => ?_⟩
  rw [bne_iff_ne]
  exact Ne.symm (h.2.2 _ (List.mem_map_of_mem hbefore) _ List.mem_cons_self)

/-- The order of members of distinct keys does not matter to what is found. -/
theorem lookup_perm {others : List (String × Json)} (h : members.Perm others)
    (hkeys : (members.map Prod.fst).Nodup) :
  members.lookup key = others.lookup key
  := by
  have hothers : (others.map Prod.fst).Nodup := (h.map Prod.fst).nodup_iff.mp hkeys
  apply Option.ext
  intro json
  rw [lookup_eq_some_iff hkeys, lookup_eq_some_iff hothers, h.mem_iff]

end

/-- Further members do not matter to what is found under one of the keys. -/
theorem lookup_filter {key : String} {keys : List String} (h : key ∈ keys)
    (members : List (String × Json)) :
  (members.filter fun member => member.1 ∈ keys).lookup key = members.lookup key
  := by
  induction members with
  | nil => rfl
  | cons member members ih =>
    obtain ⟨own, json⟩ := member
    rw [List.filter_cons]
    by_cases hown : own = key
    · subst hown
      simp [h]
    · rw [lookup_cons_of_ne hown, ← ih]
      split
      · apply lookup_cons_of_ne hown
      · rfl

end Json

namespace Doc

mutual

/-- A tree is read over without a flaw. -/
theorem skip_ofJson : (json : Json) → (ofJson json).skip = .ok ()
  | .null | .bool _ | .number _ | .string _ => rfl
  | .array items => by
    rw [ofJson, skip, skipItems_ofItems items]
    rfl
  | .object members => by
    rw [ofJson, skip, skipMembers_ofMembers members]
    rfl

theorem skipItems_ofItems : (items : List Json) → skipItems (ofItems items) = .ok ()
  | [] => rfl
  | item :: items => by
    rw [ofItems, skipItems, skip_ofJson item]
    exact skipItems_ofItems items

theorem skipMembers_ofMembers :
    (members : List (String × Json)) → skipMembers (ofMembers members) = .ok ()
  | [] => rfl
  | (_, value) :: members => by
    rw [ofMembers, skipMembers, skip_ofJson value]
    exact skipMembers_ofMembers members

end

end Doc

end StructuredQuery
