import StructuredQuery.Proofs.Reading
import StructuredQuery.Record

/-!
# Reading written records

`Fields.Written` says that the members of an object are the fields of a record in their
order, perhaps without some that need not be there.  Such an object is read as the values
that were written, and an open record gives back the further members too.
-/

namespace StructuredQuery

namespace Fields

variable {α : Type} {types : List Type}

/-! ### Slots -/

theorem put?_eq_none {types : List Type} {fields : Fields types} {key : String}
    (h : key ∉ fields.keys) (doc : Doc) (row : Row types) :
  fields.put? key doc row = none
  := by
  induction fields with
  | done => rfl
  | field own read absent rest ih =>
    obtain ⟨slot, slots⟩ := row
    simp only [keys, List.mem_cons, not_or] at h
    simp only [put?, if_neg (Ne.symm h.1), ih h.2, Option.map_none]

theorem exists_put?_eq_some {types : List Type} {fields : Fields types} {key : String}
    (h : key ∈ fields.keys) (doc : Doc) (row : Row types) :
  ∃ filled, fields.put? key doc row = some filled
  := by
  induction fields with
  | done => contradiction
  | field own read absent rest ih =>
    obtain ⟨slot, slots⟩ := row
    simp only [put?]
    split
    · exact ⟨_, rfl⟩
    · next hne =>
      rw [keys, List.mem_cons] at h
      obtain ⟨filled, hfilled⟩ := ih (h.resolve_left (Ne.symm hne)) slots
      rw [hfilled]
      exact ⟨_, rfl⟩

/-- Members of other keys leave the first slot as it is. -/
theorem readMembers_field {key : String} {read : Doc → Read α} {absent : Absent α}
    {rest : Fields types} {members : List (String × Json)}
    (h : ∀ member ∈ members, member.1 ≠ key) (slot : Option α) (slots : Row types) :
  (field key read absent rest).readMembers (Doc.ofMembers members) (slot, slots)
    = (slot, ·) <$> rest.readMembers (Doc.ofMembers members) slots
  := by
  induction members generalizing slots with
  | nil => rfl
  | cons member members ih =>
    obtain ⟨own, json⟩ := member
    obtain ⟨hne, hrest⟩ := List.forall_mem_cons.mp h
    have hmembers := ih hrest
    simp only [Doc.ofMembers, readMembers, Read.ofFlaw, put?, if_neg (Ne.symm hne), bind,
      Except.bind]
    cases rest.put? own (Doc.ofJson json) slots with
    | none =>
      simp only [Option.map_none]
      cases (Doc.ofJson json).skip with
      | error flaw => rfl
      | ok _ => apply hmembers
    | some filled =>
      simp only [Option.map_some]
      cases filled with
      | error cause => rfl
      | ok filled => apply hmembers

/-! ### Records by fields -/

/-- A record whose first field is there. -/
theorem ofMembers_cons {key : String} {read : Doc → Read α} {absent : Absent α}
    {rest : Fields types} {members : List (String × Json)} (json : Json)
    (h : ∀ member ∈ members, member.1 ≠ key) :
  (field key read absent rest).ofMembers (Doc.ofMembers ((key, json) :: members)) none
    = read (Doc.ofJson json) >>= fun value =>
        (value, ·) <$> rest.ofMembers (Doc.ofMembers members) none
  := by
  simp only [ofMembers, Doc.ofMembers, Row.empty, readMembers, Read.ofFlaw, put?, if_true, bind,
    Except.bind]
  cases read (Doc.ofJson json) with
  | error cause => rfl
  | ok value =>
    simp only [Functor.map, Except.map, readMembers_field h]
    cases rest.readMembers (Doc.ofMembers members) (Row.empty types) with
    | error cause => rfl
    | ok slots =>
      simp only [Doc.readEnding, complete, bind, Except.bind]
      cases rest.complete slots <;> rfl

/-- A record whose first field need not be there and is not. -/
theorem ofMembers_absent {key : String} {read : Doc → Read α} {value : α}
    {rest : Fields types} {members : List (String × Json)}
    (h : ∀ member ∈ members, member.1 ≠ key) :
  (field key read (.optional value) rest).ofMembers (Doc.ofMembers members) none
    = (value, ·) <$> rest.ofMembers (Doc.ofMembers members) none
  := by
  simp only [ofMembers, Row.empty, readMembers_field h, bind, Except.bind]
  cases rest.readMembers (Doc.ofMembers members) (Row.empty types) with
  | error cause => rfl
  | ok slots =>
    simp only [Functor.map, Except.map, Doc.readEnding, complete, bind, Except.bind]
    cases rest.complete slots <;> rfl

/-- A first member of another key is read over. -/
theorem ofMembers_cons_of_notMem {fields : Fields types} {key : String} (h : key ∉ fields.keys)
    {doc : Doc} (hskip : doc.skip = .ok ()) (members : List Member) (ending : Option Break) :
  fields.ofMembers ((.ok key, doc) :: members) ending = fields.ofMembers members ending
  := by
  simp only [ofMembers, readMembers, Read.ofFlaw, put?_eq_none h, hskip, bind, Except.bind]

/-! ### Written records -/

/-- The members are the fields in their order, those that need not be there may be left
out, and each is read as its value under some condition. -/
inductive Written (room : ℕ) :
    {types : List Type} → Fields types → List (String × Json) → Prop → Tuple types → Prop where
  | done : Written room .done [] True ()
  | field {α : Type} {types : List Type} {key : String} {read : Doc → Read α}
      {absent : Absent α} {rest : Fields types} {json : Json}
      {members : List (String × Json)} {condition other : Prop} {value : α}
      {values : Tuple types} (hread : Doc.Reads room read json condition value)
      (hkey : ∀ member ∈ members, member.1 ≠ key)
      (hrest : Written room rest members other values) :
      Written room (.field key read absent rest) ((key, json) :: members) (condition ∧ other)
        (value, values)
  | absent {α : Type} {types : List Type} {key : String} {read : Doc → Read α}
      {rest : Fields types} {members : List (String × Json)} {condition : Prop} {value : α}
      {values : Tuple types} (hkey : ∀ member ∈ members, member.1 ≠ key)
      (hrest : Written room rest members condition values) :
      Written room (.field key read (.optional value) rest) members condition (value, values)

namespace Written

variable {room : ℕ} {types : List Type} {fields : Fields types} {members : List (String × Json)}
  {condition : Prop} {values : Tuple types}

theorem mem_keys (h : Written room fields members condition values) :
  ∀ member ∈ members, member.1 ∈ fields.keys
  := by
  induction h with
  | done => simp
  | field _ _ _ ih =>
    rw [List.forall_mem_cons]
    use List.mem_cons_self
    intro member hmember
    apply List.mem_cons_of_mem _ (ih member hmember)
  | absent _ _ ih =>
    intro member hmember
    apply List.mem_cons_of_mem _ (ih member hmember)

theorem gives (h : Written room fields members condition values) :
  (fields.ofMembers (Doc.ofMembers members) none).Gives
    (Json.depthMembers members ≤ room ∧ condition) values
  := by
  induction h with
  | done => exact (Read.gives_ok ()).congr (by simp [Json.depthMembers]) rfl
  | field hread hkey _ ih =>
    rw [ofMembers_cons _ hkey]
    apply (hread.bind fun _ => ih.map (_, ·)).congr _ rfl
    rw [Json.depthMembers, Nat.max_le]
    tauto
  | absent hkey _ ih =>
    rw [ofMembers_absent hkey]
    apply ih.map

/-- A written record is read as the values that were written. -/
theorem reads (h : 0 < room → Written (room - 1) fields members condition values)
    (source : Source) (name : String) :
  Doc.Reads room (fields.read source name room) (.object members) condition values
  := by
  cases room with
  | zero => apply Read.gives_error (by simp [Json.depth])
  | succ room =>
    apply (h room.succ_pos).gives.congr _ rfl
    simp [Json.depth]

end Written

/-! ### Open records -/

theorem ofMembers_append (members others : List (String × Json)) :
  Doc.ofMembers (members ++ others) = Doc.ofMembers members ++ Doc.ofMembers others
  := by
  induction members with
  | nil => rfl
  | cons member members ih =>
    rw [List.cons_append, Doc.ofMembers, ih, Doc.ofMembers]
    rfl

/-- The members before others are read into the row. -/
theorem readAllMembers_append {fields : Fields types} {members : List (String × Json)}
    (h : ∀ member ∈ members, member.1 ∈ fields.keys) (room : ℕ) (others : List Member)
    (row : Row types) :
  fields.readAllMembers room (Doc.ofMembers members ++ others) row
    = fields.readMembers (Doc.ofMembers members) row >>= fields.readAllMembers room others
  := by
  induction members generalizing row with
  | nil => rfl
  | cons member members ih =>
    obtain ⟨key, json⟩ := member
    obtain ⟨hkey, hrest⟩ := List.forall_mem_cons.mp h
    obtain ⟨filled, hfilled⟩ := exists_put?_eq_some hkey (Doc.ofJson json) row
    have hmembers := ih hrest
    simp only [Doc.ofMembers, List.cons_append, readAllMembers, readMembers, Read.ofFlaw, bind,
      Except.bind, hfilled]
    cases filled with
    | error cause => rfl
    | ok filled => apply hmembers

/-- Members of other keys are kept as trees. -/
theorem gives_readAllMembers {fields : Fields types} {others : List (String × Json)}
    (h : ∀ member ∈ others, member.1 ∉ fields.keys) (room : ℕ) (row : Row types) :
  (fields.readAllMembers room (Doc.ofMembers others) row).Gives
    (Json.depthMembers others ≤ room) (row, others)
  := by
  induction others with
  | nil => exact (Read.gives_ok (row, [])).congr (by simp [Json.depthMembers]) rfl
  | cons member members ih =>
    obtain ⟨key, json⟩ := member
    obtain ⟨hkey, hrest⟩ := List.forall_mem_cons.mp h
    have hput := put?_eq_none hkey (Doc.ofJson json) row
    have hread : fields.readAllMembers room (Doc.ofMembers ((key, json) :: members)) row
        = (Doc.ofJson json).readTree room >>= fun json =>
          (fun found => (found.1, (key, json) :: found.2))
            <$> fields.readAllMembers room (Doc.ofMembers members) row := by
      simp only [Doc.ofMembers, readAllMembers, Read.ofFlaw, bind, Except.bind, hput]
      rfl
    rw [hread]
    apply ((Doc.reads_tree json room).bind fun _ => (ih hrest).map _).congr _ rfl
    rw [and_true, Json.depthMembers, Nat.max_le]

/-- An open record is read as the values that were written and the further members. -/
theorem Written.gives_open {inner room : ℕ} {fields : Fields types}
    {members others : List (String × Json)} {condition : Prop} {values : Tuple types}
    (h : Written inner fields members condition values)
    (hothers : ∀ member ∈ others, member.1 ∉ fields.keys) (hroom : 0 < room) (name : String) :
  (fields.readOpen name room (Doc.ofJson (.object (members ++ others)))).Gives
    ((Json.depthMembers members ≤ inner ∧ condition) ∧ Json.depthMembers others ≤ room - 1)
    (values, others)
  := by
  have hvalues := h.gives
  rw [ofMembers] at hvalues
  simp only [readOpen, Doc.ofJson, if_neg (Nat.ne_of_gt hroom), ofMembers_append,
    readAllMembers_append h.mem_keys]
  cases hrow : fields.readMembers (Doc.ofMembers members) (Row.empty types) with
  | error cause =>
    rw [hrow] at hvalues
    apply Read.gives_error fun hall => ?_
    cases hvalues.ok hall.1
  | ok row =>
    rw [hrow] at hvalues
    have hfound := gives_readAllMembers hothers (room - 1) row
    apply (hfound.bind fun _ => Read.Gives.map (·, others) hvalues).congr and_comm rfl

theorem Written.reads_open {room : ℕ} {fields : Fields types}
    {members others : List (String × Json)} {condition : Prop} {values : Tuple types}
    (h : 0 < room → Written (room - 1) fields members condition values)
    (hothers : ∀ member ∈ others, member.1 ∉ fields.keys) (name : String) :
  Doc.Reads room (fields.readOpen name room) (.object (members ++ others)) condition
    (values, others)
  := by
  cases room with
  | zero => apply Read.gives_error (by simp [Json.depth])
  | succ room =>
    apply ((h room.succ_pos).gives_open hothers room.succ_pos name).congr _ rfl
    simp only [Json.depth, Nat.add_le_add_iff_right, Nat.add_sub_cancel, Json.depthMembers_le_iff,
      List.forall_mem_append]
    tauto

end Fields

end StructuredQuery
