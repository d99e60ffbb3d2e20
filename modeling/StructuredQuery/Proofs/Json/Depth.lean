import StructuredQuery.Proofs.Json.Document
import StructuredQuery.Proofs.Reading

/-!
# The depth of documents

`Doc.depth` counts the containers that the deepest part of a document stands in, those
that a reader only reads over among them, and `Document.nesting` does so for a text.  The
text of a tree nests as many containers as the tree, and its canonical form no more.
-/

namespace StructuredQuery

namespace Doc

mutual

/-- The number of containers that the deepest part of the document stands in. -/
def depth : Doc → ℕ
  | .array items _ => depthItems items + 1
  | .object members _ => depthMembers members + 1
  | _ => 0
termination_by structural doc => doc

/-- The depth of the deepest item. -/
def depthItems : List Doc → ℕ
  | [] => 0
  | item :: items => max item.depth (depthItems items)
termination_by structural items => items

/-- The depth of the deepest member. -/
def depthMembers : List Member → ℕ
  | [] => 0
  | (_, value) :: members => max value.depth (depthMembers members)
termination_by structural members => members

end

theorem depth_le_depthItems {items : List Doc} {item : Doc} (h : item ∈ items) :
  item.depth ≤ depthItems items
  := by
  induction items with
  | nil => contradiction
  | cons first items ih =>
    rw [depthItems]
    rcases List.mem_cons.mp h with rfl | h
    · apply Nat.le_max_left
    · apply Nat.le_trans (ih h) (Nat.le_max_right _ _)

theorem depth_le_depthMembers {members : List Member} {member : Member} (h : member ∈ members) :
  member.2.depth ≤ depthMembers members
  := by
  induction members with
  | nil => contradiction
  | cons first members ih =>
    rw [depthMembers]
    rcases List.mem_cons.mp h with rfl | h
    · apply Nat.le_max_left
    · apply Nat.le_trans (ih h) (Nat.le_max_right _ _)

theorem depth_lt_array {items : List Doc} {ending : Option Break} {item : Doc} (h : item ∈ items) :
  item.depth < (array items ending).depth
  := Nat.lt_succ_of_le (depth_le_depthItems h)

theorem depth_lt_object {members : List Member} {ending : Option Break} {value : Doc}
    (h : value ∈ members.map Prod.snd) :
  value.depth < (object members ending).depth
  := by
  obtain ⟨member, hmember, rfl⟩ := List.mem_map.mp h
  apply Nat.lt_succ_of_le (depth_le_depthMembers hmember)

mutual

/-- A tree is as deep as a document as it is as a tree. -/
theorem depth_ofJson : (json : Json) → (ofJson json).depth = json.depth
  | .null | .bool _ | .number _ | .string _ => rfl
  | .array items => by rw [ofJson, depth, depthItems_ofItems items, Json.depth]
  | .object members => by rw [ofJson, depth, depthMembers_ofMembers members, Json.depth]

theorem depthItems_ofItems :
    (items : List Json) → depthItems (ofItems items) = Json.depthItems items
  | [] => rfl
  | item :: items => by
    rw [ofItems, depthItems, depth_ofJson item, depthItems_ofItems items, Json.depthItems]

theorem depthMembers_ofMembers :
    (members : List (String × Json)) →
      depthMembers (ofMembers members) = Json.depthMembers members
  | [] => rfl
  | (_, value) :: members => by
    rw [ofMembers, depthMembers, depth_ofJson value, depthMembers_ofMembers members,
      Json.depthMembers]

end

end Doc

/-- The number of containers that a text nests. -/
def Document.nesting (text : String) : ℕ :=
  (ofText text).root.depth

/-- The text of a tree nests as many containers as the tree. -/
theorem Document.nesting_compact (json : Json) :
  nesting json.compact = json.depth
  := by
  rw [nesting, ofText_compact, Doc.depth_ofJson]

namespace Json

/-! ### Canonical trees -/

theorem depthMembers_insertMember (key : String) (value : Json) (members : List (String × Json)) :
  depthMembers (insertMember key value members) ≤ max value.depth (depthMembers members)
  := by
  rw [depthMembers_le_iff]
  intro member hmember
  rcases mem_insertMember hmember with ⟨hvalue, -⟩ | hmember
  · rw [hvalue]
    apply Nat.le_max_left
  · apply Nat.le_trans (depthMembers_le_iff.mp (Nat.le_refl _) member hmember)
      (Nat.le_max_right _ _)

theorem depthMembers_sortMembers (members : List (String × Json)) :
  depthMembers (sortMembers members) ≤ depthMembers members
  := by
  suffices ∀ sorted, depthMembers (members.foldl
      (fun sorted member => insertMember member.1 member.2 sorted) sorted)
        ≤ max (depthMembers sorted) (depthMembers members) by
    apply Nat.le_trans (this [])
    simp [depthMembers]
  induction members with
  | nil => simp [depthMembers]
  | cons member members ih =>
    intro sorted
    have hinsert := depthMembers_insertMember member.1 member.2 sorted
    rw [List.foldl_cons, depthMembers]
    apply Nat.le_trans (ih _)
    omega

mutual

/-- The canonical form of a tree is no deeper: of members with one key all but one are lost. -/
theorem depth_canonical : (json : Json) → json.canonical.depth ≤ json.depth
  | .null | .bool _ | .number _ | .string _ => Nat.le_refl _
  | .array items => Nat.succ_le_succ (depthItems_canonicalItems items)
  | .object members =>
    Nat.succ_le_succ
      (Nat.le_trans (depthMembers_sortMembers _) (depthMembers_canonicalMembers members))

theorem depthItems_canonicalItems :
    (items : List Json) → depthItems (canonicalItems items) ≤ depthItems items
  | [] => Nat.le_refl _
  | item :: items => by
    have hitem := depth_canonical item
    have hitems := depthItems_canonicalItems items
    rw [canonicalItems, depthItems, depthItems]
    omega

theorem depthMembers_canonicalMembers :
    (members : List (String × Json)) →
      depthMembers (canonicalMembers members) ≤ depthMembers members
  | [] => Nat.le_refl _
  | (_, value) :: members => by
    have hvalue := depth_canonical value
    have hmembers := depthMembers_canonicalMembers members
    rw [canonicalMembers, depthMembers, depthMembers]
    omega

end

end Json

end StructuredQuery
