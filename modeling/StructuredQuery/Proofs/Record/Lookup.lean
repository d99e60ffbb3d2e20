import StructuredQuery.Proofs.Json.Keys
import StructuredQuery.Proofs.Record
import StructuredQuery.Proofs.Record.Order
import StructuredQuery.Proofs.Record.Success

/-!
# Records by their keys

If no key comes twice in an object, what a record is read as depends only on what stands
under the key of each field, and not on the order of the members or on further ones.  An open
record keeps the further ones, in their order.
-/

namespace StructuredQuery

/-- The reader reads the value where a tree is found, and where none is, the value stands for
the absent field. -/
def Absent.Reads {α : Type} (absent : Absent α) (read : Doc → Read α) (value : α) :
    Option Json → Prop
  | some json => read (Doc.ofJson json) = .ok value
  | none => absent.Allows value

@[simp]
theorem Absent.reads_missing_some {α : Type} {read : Doc → Read α} {value : α} {json : Json} :
  Absent.missing.Reads read value (some json) ↔ read (Doc.ofJson json) = .ok value
  := Iff.rfl

@[simp]
theorem Absent.not_reads_missing_none {α : Type} {read : Doc → Read α} {value : α} :
  ¬Absent.missing.Reads read value none
  := id

namespace Fields

variable {α : Type} {types : List Type} {members : List (String × Json)}

/-- The values of the fields, each of which is read from what is found under its key. -/
def Finds (found : String → Option Json) {types : List Type} (fields : Fields types)
    (values : Tuple types) : Prop :=
  match fields, values with
  | .done, _ => True
  | .field key read absent rest, (value, values) =>
    absent.Reads read value (found key) ∧ rest.Finds found values

/-! ### The first field -/

/-- Members fill the first slot from what stands under its key, and the others as if there were
no first field. -/
theorem readMembers_field_eq_ok_iff {key : String} {read : Doc → Read α} {absent : Absent α}
    {rest : Fields types} (hmembers : (members.map Prod.fst).Nodup) (hkey : key ∉ rest.keys)
    {slot : Option α} {slots filled : Row types} :
  (field key read absent rest).readMembers (Doc.ofMembers members) (none, slots)
      = .ok (slot, filled)
    ↔ (match members.lookup key with
      | some json => ∃ value, read (Doc.ofJson json) = .ok value ∧ slot = some value
      | none => slot = none)
      ∧ rest.readMembers (Doc.ofMembers members) slots = .ok filled
  := by
  induction members generalizing slots with
  | nil =>
    constructor
    · rintro ⟨⟩
      exact ⟨rfl, rfl⟩
    · rintro ⟨rfl, ⟨⟩⟩
      rfl
  | cons member members ih =>
    obtain ⟨own, json⟩ := member
    have hrest := (List.nodup_cons.mp hmembers).2
    by_cases hkeys : own = key
    · subst hkeys
      have hothers : ∀ member ∈ members, member.1 ≠ own :=
        fun member hmember => Json.ne_of_nodup hmembers hmember
      have hskip : rest.readMembers (Doc.ofMembers ((own, json) :: members)) slots
          = rest.readMembers (Doc.ofMembers members) slots := by
        simp only [Doc.ofMembers, readMembers, Read.ofFlaw, put?_eq_none hkey, Doc.skip_ofJson,
          bind, Except.bind]
      rw [hskip, List.lookup_cons_self]
      simp only [Doc.ofMembers, readMembers, Read.ofFlaw, put?, if_true, bind, Except.bind]
      cases read (Doc.ofJson json) with
      | error cause => simp [Functor.map, Except.map]
      | ok value =>
        simp only [Functor.map, Except.map, readMembers_field hothers]
        cases rest.readMembers (Doc.ofMembers members) slots with
        | error cause => simp
        | ok others =>
          constructor
          · rintro ⟨⟩
            exact ⟨⟨value, rfl, rfl⟩, rfl⟩
          · rintro ⟨⟨_, ⟨⟩, rfl⟩, ⟨⟩⟩
            rfl
    · rw [Json.lookup_cons_of_ne hkeys]
      simp only [Doc.ofMembers, readMembers, Read.ofFlaw, put?, if_neg (Ne.symm hkeys), bind,
        Except.bind]
      cases rest.put? own (Doc.ofJson json) slots with
      | none =>
        simp only [Option.map_none, Doc.skip_ofJson]
        apply ih hrest
      | some result =>
        cases result with
        | error cause => simp [Functor.map, Except.map]
        | ok next =>
          simp only [Option.map_some, Functor.map, Except.map]
          apply ih hrest

theorem complete_some (key : String) (read : Doc → Read α) (absent : Absent α)
    (rest : Fields types) (value : α) (slots : Row types) :
  (field key read absent rest).complete (some value, slots) = (value, ·) <$> rest.complete slots
  := by
  simp only [complete, bind, Except.bind]
  cases rest.complete slots <;> rfl

theorem complete_none_eq_ok_iff {key : String} {read : Doc → Read α} {absent : Absent α}
    {rest : Fields types} {slots : Row types} {values : Tuple (α :: types)} :
  (field key read absent rest).complete (none, slots) = .ok values
    ↔ absent.Allows values.1 ∧ rest.complete slots = .ok values.2
  := by
  cases absent with
  | missing =>
    constructor
    · nofun
    · rintro ⟨⟨⟩, -⟩
  | optional other | default other =>
    obtain ⟨value, others⟩ := values
    constructor
    · intro h
      obtain ⟨found, hfound, h⟩ := Except.bind_eq_ok_iff.mp h
      obtain ⟨_, hothers, h⟩ := Except.bind_eq_ok_iff.mp h
      cases hfound
      cases h
      exact ⟨rfl, hothers⟩
    · rintro ⟨hvalue, hrest⟩
      obtain rfl : value = other := hvalue
      simp only [complete, bind, Except.bind, hrest]
      rfl

/-- The values are those of the row into which the members are read. -/
theorem ofMembers_eq_ok_iff_exists {types : List Type} {fields : Fields types}
    {members : List Member} {values : Tuple types} :
  fields.ofMembers members none = .ok values
    ↔ ∃ row, fields.readMembers members (Row.empty types) = .ok row
      ∧ fields.complete row = .ok values
  := Except.bind_eq_ok_iff

/-- The first value is read from what is found under its key, and the others as if there were no
first field. -/
theorem ofMembers_field_eq_ok_iff {key : String} {read : Doc → Read α} {absent : Absent α}
    {rest : Fields types} (hmembers : (members.map Prod.fst).Nodup) (hkey : key ∉ rest.keys)
    {values : Tuple (α :: types)} :
  (field key read absent rest).ofMembers (Doc.ofMembers members) none = .ok values
    ↔ absent.Reads read values.1 (members.lookup key)
      ∧ rest.ofMembers (Doc.ofMembers members) none = .ok values.2
  := by
  have hrow (slot : Option α) (slots : Row types) :
      (field key read absent rest).readMembers (Doc.ofMembers members) (Row.empty (α :: types))
          = .ok (slot, slots) ↔ _ :=
    readMembers_field_eq_ok_iff hmembers hkey
  rw [ofMembers_eq_ok_iff_exists, ofMembers_eq_ok_iff_exists]
  cases hfound : members.lookup key with
  | some json =>
    rw [hfound] at hrow
    constructor
    · rintro ⟨⟨slot, slots⟩, hread, hvalues⟩
      obtain ⟨⟨value, hvalue, rfl⟩, hslots⟩ := (hrow _ _).mp hread
      rw [complete_some] at hvalues
      obtain ⟨others, hothers, rfl⟩ := Except.map_eq_ok_iff.mp hvalues
      exact ⟨hvalue, slots, hslots, hothers⟩
    · rintro ⟨hvalue, slots, hslots, hothers⟩
      refine ⟨(some values.1, slots), (hrow _ _).mpr ⟨⟨values.1, hvalue, rfl⟩, hslots⟩, ?_⟩
      rw [complete_some, hothers]
      rfl
  | none =>
    rw [hfound] at hrow
    constructor
    · rintro ⟨⟨slot, slots⟩, hread, hvalues⟩
      obtain ⟨rfl, hslots⟩ := (hrow _ _).mp hread
      obtain ⟨hvalue, hothers⟩ := complete_none_eq_ok_iff.mp hvalues
      exact ⟨hvalue, slots, hslots, hothers⟩
    · rintro ⟨hvalue, slots, hslots, hothers⟩
      use (none, slots), (hrow _ _).mpr ⟨rfl, hslots⟩
      exact complete_none_eq_ok_iff.mpr ⟨hvalue, hothers⟩

/-! ### All fields -/

/-- A record without fields is read from any members. -/
theorem ofMembers_done (members : List (String × Json)) :
  done.ofMembers (Doc.ofMembers members) none = .ok ()
  := by
  have hmembers : done.readMembers (Doc.ofMembers members) () = .ok () := by
    induction members with
    | nil => rfl
    | cons member members ih =>
      simp only [Doc.ofMembers, readMembers, Read.ofFlaw, put?, Doc.skip_ofJson, bind, Except.bind]
      apply ih
  simp only [ofMembers, Row.empty, hmembers, Doc.readEnding, complete, bind, Except.bind]

/-- The values of a record are those that are found under its keys. -/
theorem ofMembers_eq_ok_iff {types : List Type} {fields : Fields types}
    (hmembers : (members.map Prod.fst).Nodup) (hkeys : fields.keys.Nodup)
    {values : Tuple types} :
  fields.ofMembers (Doc.ofMembers members) none = .ok values
    ↔ fields.Finds (members.lookup ·) values
  := by
  induction fields with
  | done => exact ⟨fun _ => trivial, fun _ => ofMembers_done members⟩
  | field key read absent rest ih =>
    obtain ⟨hkey, hrest⟩ := List.nodup_cons.mp hkeys
    rw [ofMembers_field_eq_ok_iff hmembers hkey, ih hrest]
    rfl

/-- A record in an object is made up of the values that are found under its keys. -/
theorem read_object_eq_ok_iff {fields : Fields types} (hmembers : (members.map Prod.fst).Nodup)
    (hkeys : fields.keys.Nodup) {source : Source} {name : String} {room : ℕ} (hroom : 0 < room)
    {values : Tuple types} :
  fields.read source name room (Doc.ofJson (.object members)) = .ok values
    ↔ fields.Finds (members.lookup ·) values
  := by
  rw [Doc.ofJson, read, if_neg (Nat.ne_of_gt hroom), ofMembers_eq_ok_iff hmembers hkeys]

/-- The values of a record are found one by one. -/
theorem exists_finds_required_iff {found : String → Option Json} {key : String}
    {read : Doc → Read α} {rest : Fields types} {P : Tuple (α :: types) → Prop} :
  (∃ values, (required key read rest).Finds found values ∧ P values)
    ↔ ∃ value, Absent.missing.Reads read value (found key)
      ∧ ∃ values, rest.Finds found values ∧ P (value, values)
  := by
  constructor
  · rintro ⟨⟨value, values⟩, ⟨hvalue, hvalues⟩, h⟩
    exact ⟨value, hvalue, values, hvalues, h⟩
  · rintro ⟨value, hvalue, values, hvalues, h⟩
    exact ⟨(value, values), ⟨hvalue, hvalues⟩, h⟩

theorem exists_finds_done_iff {found : String → Option Json} {P : Tuple [] → Prop} :
  (∃ values, done.Finds found values ∧ P values) ↔ P ()
  := by
  constructor
  · rintro ⟨⟨⟩, -, h⟩
    exact h
  · exact fun h => ⟨(), trivial, h⟩

/-! ### Open records -/

/-- The values depend only on what is found under the keys of the fields. -/
theorem finds_congr {types : List Type} {fields : Fields types} {found other : String → Option Json}
    (h : ∀ key ∈ fields.keys, found key = other key) (values : Tuple types) :
  fields.Finds found values ↔ fields.Finds other values
  := by
  induction fields with
  | done => rfl
  | field key read absent rest ih =>
    obtain ⟨hkey, hrest⟩ := List.forall_mem_cons.mp h
    obtain ⟨value, others⟩ := values
    simp only [Finds, hkey, ih hrest]

/-- The values of an open record are those that are found under its keys, and the further members
are all others, in order. -/
theorem readOpen_eq_ok_iff {fields : Fields types} (hmembers : (members.map Prod.fst).Nodup)
    (hkeys : fields.keys.Nodup) {name : String} {room : ℕ} {values : Tuple types}
    {others : List (String × Json)} :
  fields.readOpen name room (Doc.ofJson (.object members)) = .ok (values, others)
    ↔ fields.Finds (members.lookup ·) values
      ∧ others = (members.filter fun member => member.1 ∉ fields.keys)
      ∧ Json.depthMembers others < room
  := by
  have hsublist : (members.filter fun member => member.1 ∈ fields.keys).Sublist members :=
    List.filter_sublist
  have howned := (hsublist.map Prod.fst).nodup hmembers
  have hown (key : String) : fields.owns (.ok key) = decide (key ∈ fields.keys) := by
    rw [Bool.eq_iff_iff, owns_ok, decide_eq_true_iff]
  have howns := Doc.filter_ofMembers hown members
  have hothers := Doc.filter_ofMembers (p := fun key => !fields.owns key)
    (q := fun key => decide (key ∉ fields.keys)) (fun key => by simp [hown]) members
  rw [← finds_congr (fun key hkey => Json.lookup_filter hkey members),
    ← ofMembers_eq_ok_iff howned hkeys, ofMembers_eq_ok_iff_exists]
  rw [Doc.ofJson, readOpen]
  split
  · next hroom => simp [Read.fail, hroom]
  · next hroom =>
    simp only [Except.bind_eq_ok_iff, Doc.readEnding_eq_ok_iff]
    constructor
    · rintro ⟨⟨row, trees⟩, hrow, -, -, found, hfound, ⟨⟩⟩
      rw [readAllMembers_eq_ok_iff, howns, hothers] at hrow
      obtain ⟨hrow, htrees, hdepth⟩ := hrow
      exact ⟨⟨row, hrow, hfound⟩, (Doc.ofMembers_injective htrees).symm,
        Nat.lt_of_le_pred (Nat.pos_of_ne_zero hroom) hdepth⟩
    · rintro ⟨⟨row, hrow, hfound⟩, rfl, hdepth⟩
      refine ⟨(row, _), ?_, (), trivial, values, hfound, rfl⟩
      rw [readAllMembers_eq_ok_iff, howns, hothers]
      exact ⟨hrow, rfl, Nat.le_pred_of_lt hdepth⟩

end Fields

end StructuredQuery
