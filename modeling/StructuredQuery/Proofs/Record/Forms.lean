import StructuredQuery.Proofs.Record.Lookup

/-!
# The two forms of a record

A record is an object or the array of its values.  `Json.IsRecord` says what a tree of either
form holds under the keys of a record, and from that alone the values are read.
-/

namespace StructuredQuery

namespace Fields

variable {types : List Type}

/-- An array of this many values can be the record: each field for which no value is left has
one of its own. -/
def Admits (count : ℕ) {types : List Type} (fields : Fields types) : Prop :=
  match fields, count with
  | .done, count => count = 0
  | .field _ _ absent rest, 0 => (∃ value, absent = .default value) ∧ rest.Admits 0
  | .field _ _ _ rest, count + 1 => rest.Admits count

/-- The values of an array stand for the fields in their order. -/
theorem readItems_eq_ok_iff {types : List Type} {fields : Fields types}
    (hkeys : fields.keys.Nodup) {items : List Json} (h : fields.Admits items.length)
    {expected : String} {index : ℕ} {values : Tuple types} :
  fields.readItems expected none index (Doc.ofItems items) = .ok (values, [])
    ↔ fields.Finds ((fields.keys.zip items).lookup ·) values
  := by
  induction fields generalizing items index with
  | done =>
    obtain rfl := List.eq_nil_of_length_eq_zero h
    exact ⟨fun _ => trivial, fun _ => rfl⟩
  | field key read absent rest ih =>
    obtain ⟨value, others⟩ := values
    obtain ⟨hkey, hrest⟩ := List.nodup_cons.mp hkeys
    cases items with
    | nil =>
      obtain ⟨⟨own, rfl⟩, h⟩ := h
      have hadmits : rest.Admits ([] : List Json).length := h
      have hothers : rest.readItems expected none (index + 1) (Doc.ofItems []) = .ok (others, [])
          ↔ rest.Finds ((rest.keys.zip []).lookup ·) others := ih hrest hadmits
      rw [List.zip_nil_right] at hothers
      simp only [Doc.ofItems, readItems, Except.bind_eq_ok_iff]
      constructor
      · rintro ⟨_, -, _, ⟨⟩, ⟨found, left⟩, hfound, ⟨⟩⟩
        exact ⟨rfl, hothers.mp hfound⟩
      · rintro ⟨⟨⟩, hfound⟩
        exact ⟨(), rfl, _, rfl, (others, []), hothers.mpr hfound, rfl⟩
    | cons item items =>
      have hothers : rest.readItems expected none (index + 1) (Doc.ofItems items)
          = .ok (others, []) ↔ rest.Finds ((rest.keys.zip items).lookup ·) others := ih hrest h
      have hfinds : rest.Finds (((key :: rest.keys).zip (item :: items)).lookup ·) others
          ↔ rest.Finds ((rest.keys.zip items).lookup ·) others := by
        apply finds_congr
        intro other hother
        rw [List.zip_cons_cons]
        apply Json.lookup_cons_of_ne
        rintro rfl
        exact hkey hother
      have hown : ((key :: rest.keys).zip (item :: items)).lookup key = some item := by
        rw [List.zip_cons_cons, List.lookup_cons_self]
      simp only [Doc.ofItems, readItems, Except.bind_eq_ok_iff, Except.map_eq_ok_iff, Finds, keys,
        hown, hfinds, ← hothers, Absent.Reads]
      constructor
      · rintro ⟨_, ⟨first, hfirst, rfl⟩, ⟨found, left⟩, hfound, ⟨⟩⟩
        exact ⟨hfirst, hfound⟩
      · rintro ⟨hfirst, hfound⟩
        exact ⟨_, ⟨value, hfirst, rfl⟩, (others, []), hfound, rfl⟩

/-- A record in an array is made up of the values that stand in the places of its keys. -/
theorem ofItems_eq_ok_iff {fields : Fields types} (hkeys : fields.keys.Nodup) {items : List Json}
    (h : fields.Admits items.length) {source : Source} {name : String} {values : Tuple types} :
  fields.ofItems source name (Doc.ofItems items) none = .ok values
    ↔ fields.Finds ((fields.keys.zip items).lookup ·) values
  := by
  rw [← readItems_eq_ok_iff hkeys h]
  simp only [ofItems, Except.bind_eq_ok_iff]
  constructor
  · rintro ⟨⟨found, left⟩, hfound, _, hending, ⟨⟩⟩
    obtain ⟨rfl, -⟩ := readItemsEnding_eq_ok_iff.mp hending
    exact hfound
  · intro hfound
    exact ⟨(values, []), hfound, (), readItemsEnding_eq_ok_iff.mpr ⟨rfl, rfl⟩, rfl⟩

end Fields

/-! ### Trees of either form -/

namespace Json

/-- The tree is a record with this under some of its keys: an object that repeats no key, in any
order and with whatever further members, or the array of what is there. -/
def IsRecord (found : List (String × Option Json)) : Json → Prop
  | .object members =>
    (members.map Prod.fst).Nodup ∧ ∀ entry ∈ found, members.lookup entry.1 = entry.2
  | .array items => items = found.filterMap Prod.snd
  | _ => False

variable {found : List (String × Option Json)} {json part : Json} {key : String}

/-- What a record holds is less deep than the record. -/
theorem IsRecord.depth_lt (h : json.IsRecord found) (hpart : (key, some part) ∈ found) :
  part.depth < json.depth
  := by
  cases json with
  | object members =>
    have hmember := mem_of_lookup (h.2 _ hpart)
    exact Nat.lt_succ_of_le (depthMembers_le_iff.mp (Nat.le_refl _) _ hmember)
  | array items =>
    have hitem : part ∈ items := by
      rw [h, List.mem_filterMap]
      exact ⟨_, hpart, rfl⟩
    exact Nat.lt_succ_of_le (depthItems_le_iff.mp (Nat.le_refl _) _ hitem)
  | _ => cases h

end Json

namespace Fields

variable {types : List Type} {fields : Fields types} {found : List (String × Option Json)}

/-- What is found under the keys of the fields is also found in their places in an array. -/
def Places (fields : Fields types) (found : List (String × Option Json)) : Prop :=
  fields.Admits (found.filterMap Prod.snd).length
    ∧ ∀ entry ∈ found, (fields.keys.zip (found.filterMap Prod.snd)).lookup entry.1 = entry.2

/-- A record of either form is made up of the values that are found under its keys. -/
theorem exists_read_eq_ok_iff (hkeys : fields.keys.Nodup) (hplaces : fields.Places found)
    {json : Json} (hjson : json.IsRecord found) (source : Source) (name : String) {room : ℕ}
    (hroom : 0 < room) :
  ∃ under : String → Option Json, (∀ entry ∈ found, under entry.1 = entry.2)
    ∧ ∀ values, fields.read source name room (Doc.ofJson json) = .ok values
      ↔ fields.Finds under values
  := by
  cases json with
  | object members =>
    refine ⟨(members.lookup ·), hjson.2, fun values => ?_⟩
    apply read_object_eq_ok_iff hjson.1 hkeys hroom
  | array items =>
    obtain rfl := hjson
    refine ⟨((fields.keys.zip _).lookup ·), hplaces.2, fun values => ?_⟩
    rw [Doc.ofJson, read, if_neg (Nat.ne_of_gt hroom)]
    apply ofItems_eq_ok_iff hkeys hplaces.1
  | _ => cases hjson

end Fields

end StructuredQuery
