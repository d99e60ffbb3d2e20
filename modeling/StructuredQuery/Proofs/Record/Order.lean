import StructuredQuery.Proofs.Reading.Order
import StructuredQuery.Proofs.Record

/-!
# Records in any order

The members of a record may come in any order: a member is read into the slot of its own key,
so two of distinct keys can change places.  From one such step follows every permutation.  The
further members of an open record come in another order too, but they are the same.
-/

namespace StructuredQuery

/-- The part stands in the document under the key, or at the index. -/
def Doc.Holds (doc : Doc) (key : String) (index : ℕ) (part : Doc) : Prop :=
  match doc with
  | .object members _ => (.ok key, part) ∈ members
  | .array items _ => items[index]? = some part
  | _ => False

theorem Doc.Holds.unrepeated {doc part : Doc} {key : String} {index : ℕ}
    (h : doc.Holds key index part) (hkeys : doc.Unrepeated) :
  part.Unrepeated
  := by
  cases doc with
  | object members ending => apply unrepeatedMembers_iff.mp hkeys.2 _ h
  | array items ending => apply unrepeatedItems_iff.mp hkeys part (List.mem_of_getElem? h)
  | _ => cases h

/-- The parts of a tree are trees. -/
theorem Doc.Holds.exists_json {json : Json} {part : Doc} {key : String} {index : ℕ}
    (h : (ofJson json).Holds key index part) :
  ∃ inner, part = ofJson inner
  := by
  cases json with
  | object members =>
    have hmember : (.ok key, part) ∈ ofMembers members := h
    rw [ofMembers_eq_map] at hmember
    obtain ⟨member, -, heq⟩ := List.mem_map.mp hmember
    exact ⟨member.2, (Prod.mk.inj heq).2.symm⟩
  | array items =>
    have hitem : part ∈ ofItems items := List.mem_of_getElem? h
    rw [ofItems_eq_map] at hitem
    obtain ⟨inner, -, heq⟩ := List.mem_map.mp hitem
    exact ⟨inner, heq.symm⟩
  | _ => cases h

namespace Fields

variable {types : List Type} {fields : Fields types}

/-- The readers of the fields, the first of which has the index, are steady at what a document
holds for them. -/
def Steady (holds : String → ℕ → Doc → Prop) (index : ℕ) {types : List Type} :
    Fields types → Prop
  | .done => True
  | .field key read _ rest =>
    (∀ part, holds key index part → part.Steady read) ∧ rest.Steady holds (index + 1)

/-! ### One member -/

/-- Reads a member into the slot of its key, or over it. -/
def readMember (fields : Fields types) (member : Member) (row : Row types) :
    Read (Row types) := do
  match fields.put? (← Read.ofFlaw member.1) member.2 row with
  | some filled => filled
  | none => do
    Read.ofFlaw member.2.skip
    return row

theorem readMembers_cons_eq_ok_iff {member : Member} {members : List Member}
    {row filled : Row types} :
  fields.readMembers (member :: members) row = .ok filled
    ↔ ∃ next, fields.readMember member row = .ok next ∧ fields.readMembers members next = .ok filled
  := by
  obtain ⟨key, doc⟩ := member
  cases key with
  | error flaw =>
    constructor
    · rintro ⟨⟩
    · rintro ⟨-, ⟨⟩, -⟩
  | ok key =>
    simp only [readMembers, readMember, Read.ofFlaw, bind, Except.bind]
    cases fields.put? key doc row with
    | none => cases doc.skip <;> simp [Read.fail, pure, Except.pure]
    | some result => cases result <;> simp

theorem exists_key_of_readMember {member : Member} {row filled : Row types}
    (h : fields.readMember member row = .ok filled) :
  ∃ key, member.1 = .ok key
  := by
  obtain ⟨key, hkey, -⟩ := Except.bind_eq_ok_iff.mp h
  exact ⟨key, Read.ofFlaw_eq_ok_iff.mp hkey⟩

theorem readMember_done_eq_ok_iff {member : Member} {row filled : Row []} :
  done.readMember member row = .ok filled
    ↔ (∃ key, member.1 = .ok key) ∧ member.2.skip = .ok ()
  := by
  obtain ⟨key, doc⟩ := member
  cases key with
  | error flaw => simp [readMember, Read.ofFlaw, Read.fail, bind, Except.bind]
  | ok key =>
    simp only [readMember, Read.ofFlaw, bind, Except.bind, put?]
    cases doc.skip with
    | error flaw => simp [Read.fail]
    | ok _ => exact ⟨fun _ => ⟨⟨key, rfl⟩, rfl⟩, fun _ => rfl⟩

section

variable {α : Type} {own : String} {read : Doc → Read α} {absent : Absent α}
  {slots lasts : Row types}

theorem readMember_of_ne {key : String} (h : own ≠ key) (doc : Doc) (slot : Option α) :
  (field own read absent fields).readMember (.ok key, doc) (slot, slots)
    = (slot, ·) <$> fields.readMember (.ok key, doc) slots
  := by
  simp only [readMember, Read.ofFlaw, put?, if_neg h, bind, Except.bind]
  cases fields.put? key doc slots with
  | none => cases doc.skip <;> rfl
  | some result => rfl

/-- A member goes into the slot of the first field, which must be empty, or to the rest. -/
theorem readMember_field_eq_ok_iff {member : Member} {slot last : Option α} :
  (field own read absent fields).readMember member (slot, slots) = .ok (last, lasts)
    ↔ (member.1 = .ok own ∧ slot = none ∧ lasts = slots
        ∧ ∃ value, read member.2 = .ok value ∧ last = some value)
      ∨ member.1 ≠ .ok own ∧ last = slot ∧ fields.readMember member slots = .ok lasts
  := by
  obtain ⟨key, doc⟩ := member
  cases key with
  | error flaw => simp [readMember, Read.ofFlaw, Read.fail, bind, Except.bind]
  | ok key =>
    by_cases hkey : own = key
    · subst hkey
      simp only [readMember, Read.ofFlaw, put?, if_true, bind, Except.bind, ne_eq, not_true_eq_false,
        false_and, or_false, true_and]
      cases slot with
      | some value => simp
      | none =>
        apply Iff.trans Except.map_eq_ok_iff
        constructor
        · rintro ⟨value, hvalue, ⟨⟩⟩
          exact ⟨rfl, rfl, value, hvalue, rfl⟩
        · rintro ⟨-, rfl, value, hvalue, rfl⟩
          exact ⟨value, hvalue, rfl⟩
    · rw [readMember_of_ne hkey]
      apply Iff.trans Except.map_eq_ok_iff
      constructor
      · rintro ⟨rest, hrest, ⟨⟩⟩
        exact Or.inr ⟨fun hown => hkey (Except.ok.inj hown).symm, rfl, hrest⟩
      · rintro (⟨hown, -⟩ | ⟨-, rfl, hrest⟩)
        · exact absurd (Except.ok.inj hown).symm hkey
        · exact ⟨lasts, hrest, rfl⟩

end

/-- Two members of distinct keys can change places. -/
theorem readMember_comm {first second : Member} (hne : first.1 ≠ second.1)
    {row next filled : Row types} (hfirst : fields.readMember first row = .ok next)
    (hsecond : fields.readMember second next = .ok filled) :
  ∃ other, fields.readMember second row = .ok other ∧ fields.readMember first other = .ok filled
  := by
  induction fields with
  | done =>
    rw [readMember_done_eq_ok_iff] at hfirst hsecond
    exact ⟨(), readMember_done_eq_ok_iff.mpr hsecond, readMember_done_eq_ok_iff.mpr hfirst⟩
  | field own read absent rest ih =>
    obtain ⟨slot, slots⟩ := row
    obtain ⟨middle, middles⟩ := next
    obtain ⟨last, lasts⟩ := filled
    rw [readMember_field_eq_ok_iff] at hfirst hsecond
    obtain ⟨hown, rfl, rfl, hread⟩ | ⟨hother, rfl, hrest⟩ := hfirst
    · obtain ⟨hown', -⟩ | ⟨hother', rfl, hrest'⟩ := hsecond
      · exact absurd (hown.trans hown'.symm) hne
      · use (none, lasts)
        rw [readMember_field_eq_ok_iff, readMember_field_eq_ok_iff]
        exact ⟨Or.inr ⟨hother', rfl, hrest'⟩, Or.inl ⟨hown, rfl, rfl, hread⟩⟩
    · obtain ⟨hown', rfl, rfl, hread⟩ | ⟨hother', rfl, hrest'⟩ := hsecond
      · use (last, slots)
        rw [readMember_field_eq_ok_iff, readMember_field_eq_ok_iff]
        exact ⟨Or.inl ⟨hown', rfl, rfl, hread⟩, Or.inr ⟨hother, rfl, hrest⟩⟩
      · obtain ⟨others, hothers, hlasts⟩ := ih hrest hrest'
        use (last, others)
        rw [readMember_field_eq_ok_iff, readMember_field_eq_ok_iff]
        exact ⟨Or.inr ⟨hother', rfl, hothers⟩, Or.inr ⟨hother, rfl, hlasts⟩⟩

/-! ### All members -/

/-- Members of distinct keys can be read in any order. -/
theorem readMembers_of_perm {members others : List Member} (h : members.Perm others)
    (hkeys : (Doc.keys members).Nodup) {row filled : Row types}
    (hread : fields.readMembers members row = .ok filled) :
  fields.readMembers others row = .ok filled
  := by
  induction h generalizing row with
  | nil => apply hread
  | cons member _ ih =>
    rw [readMembers_cons_eq_ok_iff] at hread ⊢
    obtain ⟨next, hnext, hrest⟩ := hread
    obtain ⟨key, hkey⟩ := exists_key_of_readMember hnext
    use next, hnext
    apply ih _ hrest
    apply (List.nodup_cons.mp (Doc.keys_cons hkey _ ▸ hkeys)).2
  | swap first second members =>
    rw [readMembers_cons_eq_ok_iff] at hread
    obtain ⟨next, hsecond, hread⟩ := hread
    rw [readMembers_cons_eq_ok_iff] at hread
    obtain ⟨last, hfirst, hrest⟩ := hread
    have hne : second.1 ≠ first.1 := by
      obtain ⟨key, hkey⟩ := exists_key_of_readMember hsecond
      obtain ⟨other, hother⟩ := exists_key_of_readMember hfirst
      rw [Doc.keys_cons hkey, Doc.keys_cons hother] at hkeys
      rw [hkey, hother]
      rintro ⟨⟩
      exact (List.nodup_cons.mp hkeys).1 List.mem_cons_self
    obtain ⟨other, hother, hlast⟩ := readMember_comm hne hsecond hfirst
    rw [readMembers_cons_eq_ok_iff]
    use other, hother
    rw [readMembers_cons_eq_ok_iff]
    use last, hlast
  | trans h _ ih ih' =>
    apply ih' _ (ih hkeys hread)
    apply (h.filterMap _).nodup_iff.mp hkeys

section

variable {holds : String → ℕ → Doc → Prop} {index : ℕ}

/-- A member is read alike if its value is reordered. -/
theorem readMember_of_steady (hfields : fields.Steady holds index) {key : Key} {part other : Doc}
    (hholds : ∀ name, key = .ok name → ∀ index, holds name index part)
    (hother : part.Reordered other) {row filled : Row types}
    (hread : fields.readMember (key, part) row = .ok filled) :
  fields.readMember (key, other) row = .ok filled
  := by
  induction fields generalizing index with
  | done =>
    rw [readMember_done_eq_ok_iff] at hread ⊢
    exact ⟨hread.1, hother.skip hread.2⟩
  | field own read absent rest ih =>
    obtain ⟨slot, slots⟩ := row
    obtain ⟨last, lasts⟩ := filled
    rw [readMember_field_eq_ok_iff] at hread ⊢
    obtain ⟨hown, hslot, hslots, value, hvalue, hlast⟩ | ⟨hne, hlast, hrest⟩ := hread
    · have hvalue := hfields.1 part (hholds own hown index) other hother value hvalue
      exact Or.inl ⟨hown, hslot, hslots, value, hvalue, hlast⟩
    · exact Or.inr ⟨hne, hlast, ih hfields.2 hrest⟩

theorem readMembers_of_steady (hfields : fields.Steady holds index)
    {pairs : List (Key × Doc × Doc)} (hpairs : ∀ pair ∈ pairs, pair.2.1.Reordered pair.2.2)
    (hholds : ∀ name part other, (.ok name, part, other) ∈ pairs → ∀ index, holds name index part)
    {row filled : Row types}
    (hread : fields.readMembers (pairs.map (Prod.map id Prod.fst)) row = .ok filled) :
  fields.readMembers (pairs.map (Prod.map id Prod.snd)) row = .ok filled
  := by
  induction pairs generalizing row with
  | nil => apply hread
  | cons pair pairs ih =>
    obtain ⟨key, part, other⟩ := pair
    obtain ⟨hother, hpairs⟩ := List.forall_mem_cons.mp hpairs
    rw [List.map_cons, readMembers_cons_eq_ok_iff] at hread ⊢
    obtain ⟨next, hnext, hrest⟩ := hread
    use next
    constructor
    · apply readMember_of_steady hfields _ hother hnext
      rintro name rfl
      apply hholds name part other List.mem_cons_self
    · apply ih hpairs _ hrest
      intro name part other hmember
      apply hholds name part other (List.mem_cons_of_mem _ hmember)

end

/-- The members of an object are read alike in any order. -/
theorem readMembers_of_reordered {members others : List Member} {ending last : Option Break}
    (h : (Doc.object members ending).Reordered (.object others last))
    (hkeys : (Doc.keys members).Nodup) {holds : String → ℕ → Doc → Prop} {index : ℕ}
    (hfields : fields.Steady holds index)
    (hholds : ∀ name part, (.ok name, part) ∈ members → ∀ index, holds name index part)
    {row filled : Row types} (hread : fields.readMembers members row = .ok filled) :
  fields.readMembers others row = .ok filled
  := by
  obtain ⟨pairs, shuffled, rfl, hother, hperm, hpairs⟩ := h.of_object
  obtain ⟨rfl, -⟩ := Doc.object.inj hother
  apply readMembers_of_perm (hperm.map _)
  · rw [Doc.keys_map] at hkeys ⊢
    apply hkeys
  · apply readMembers_of_steady hfields hpairs _ hread
    intro name part other hmember
    apply hholds name part (List.mem_map_of_mem (f := Prod.map id Prod.fst) hmember)

/-- An object is read alike in any order. -/
theorem ofMembers_of_reordered {members others : List Member} {ending last : Option Break}
    (h : (Doc.object members ending).Reordered (.object others last))
    (hkeys : (Doc.keys members).Nodup)
    (hfields : fields.Steady (Doc.object members ending).Holds 0) {values : Tuple types}
    (hread : fields.ofMembers members ending = .ok values) :
  fields.ofMembers others last = .ok values
  := by
  obtain rfl := h.ending_eq
  simp only [ofMembers, Except.bind_eq_ok_iff] at hread ⊢
  obtain ⟨row, hrow, hrest⟩ := hread
  use row
  constructor
  · apply readMembers_of_reordered h hkeys hfields _ hrow
    exact fun _ _ hmember _ => hmember
  · apply hrest

/-! ### Arrays -/

/-- Items that are all taken are read alike if they are reordered themselves. -/
theorem readItems_of_steady {holds : String → ℕ → Doc → Prop} {index : ℕ}
    (hfields : fields.Steady holds index) {pairs : List (Doc × Doc)}
    (hpairs : ∀ pair ∈ pairs, pair.1.Reordered pair.2)
    (hholds : ∀ offset part, (pairs.map Prod.fst)[offset]? = some part →
      ∀ key, holds key (index + offset) part)
    {expected : String} {ending : Option Break} {values : Tuple types}
    (hread : fields.readItems expected ending index (pairs.map Prod.fst) = .ok (values, [])) :
  fields.readItems expected ending index (pairs.map Prod.snd) = .ok (values, [])
  := by
  induction fields generalizing index pairs with
  | done =>
    have hitems : pairs.map Prod.fst = [] := congrArg Prod.snd (Except.ok.inj hread)
    obtain rfl := List.map_eq_nil_iff.mp hitems
    apply hread
  | field own read absent rest ih =>
    cases pairs with
    | nil => apply hread
    | cons pair pairs =>
      obtain ⟨hpair, hpairs⟩ := List.forall_mem_cons.mp hpairs
      simp only [List.map_cons, readItems, Except.bind_eq_ok_iff] at hread ⊢
      obtain ⟨first, hfirst, ⟨lasts, left⟩, hrest, hvalues⟩ := hread
      obtain ⟨value, hvalue, rfl⟩ := Except.map_eq_ok_iff.mp hfirst
      cases hvalues
      have hvalue := hfields.1 pair.1 (hholds 0 pair.1 rfl own) pair.2 hpair value hvalue
      have hrest := ih hfields.2 hpairs (fun offset part hpart key => ?_) hrest
      · rw [hvalue]
        exact ⟨_, rfl, _, hrest, rfl⟩
      · rw [Nat.add_right_comm]
        apply hholds (offset + 1) part hpart

theorem readItemsEnding_eq_ok_iff {source : Source} {count : ℕ} {items : List Doc}
    {ending : Option Break} :
  readItemsEnding source count items ending = .ok () ↔ items = [] ∧ ending = none
  := by
  cases items with
  | nil => cases ending <;> simp [readItemsEnding, Read.fail]
  | cons item items => cases source <;> simp [readItemsEnding, Read.fail]

/-- An array is read alike in any order of the members inside its items. -/
theorem ofItems_of_reordered {items others : List Doc} {ending last : Option Break}
    (h : (Doc.array items ending).Reordered (.array others last))
    (hfields : fields.Steady (Doc.array items ending).Holds 0) {source : Source} {name : String}
    {values : Tuple types} (hread : fields.ofItems source name items ending = .ok values) :
  fields.ofItems source name others last = .ok values
  := by
  obtain ⟨pairs, rfl, hother, hpairs⟩ := h.of_array
  obtain ⟨rfl, rfl⟩ := Doc.array.inj hother
  simp only [ofItems, Except.bind_eq_ok_iff] at hread ⊢
  obtain ⟨⟨found, left⟩, hfound, _, hending, hvalues⟩ := hread
  cases hvalues
  obtain ⟨rfl, rfl⟩ := readItemsEnding_eq_ok_iff.mp hending
  refine ⟨(found, []), ?_, (), rfl, rfl⟩
  apply readItems_of_steady hfields hpairs _ hfound
  intro offset part hpart key
  rw [Nat.zero_add]
  apply hpart

/-! ### Records -/

/-- A record is read in any order if the readers of its fields are steady. -/
theorem steady_read {doc : Doc} (hkeys : doc.Unrepeated) (hfields : fields.Steady doc.Holds 0)
    (source : Source) (name : String) (room : ℕ) :
  doc.Steady (fields.read source name room)
  := by
  intro other hother values hread
  cases doc with
  | array items ending =>
    obtain ⟨pairs, -, rfl, -⟩ := hother.of_array
    rw [read] at hread ⊢
    split at hread
    · cases hread
    · next hroom =>
      rw [if_neg hroom]
      apply ofItems_of_reordered hother hfields hread
  | object members ending =>
    obtain ⟨others, rfl⟩ := hother.exists_object
    rw [read] at hread ⊢
    split at hread
    · cases hread
    · next hroom =>
      rw [if_neg hroom]
      apply ofMembers_of_reordered hother hkeys.1 hfields hread
  | _ => exact absurd hread (Doc.refuse_ne_ok _ _ _)

/-! ### Open records -/

/-- The key of the member is that of a field. -/
def owns (fields : Fields types) (key : Key) : Bool :=
  key.toOption.any fields.keys.contains

theorem owns_ok {key : String} :
  fields.owns (.ok key) ↔ key ∈ fields.keys
  := by
  rw [owns, Except.toOption, Option.any_some, List.contains_iff_mem]

/-- The members under the keys of the fields are read into the row, and all others are trees. -/
theorem readAllMembers_eq_ok_iff {room : ℕ} {members : List Member} {row filled : Row types}
    {others : List (String × Json)} :
  fields.readAllMembers room members row = .ok (filled, others)
    ↔ fields.readMembers (members.filter fun member => fields.owns member.1) row = .ok filled
      ∧ (members.filter fun member => !fields.owns member.1) = Doc.ofMembers others
      ∧ Json.depthMembers others ≤ room
  := by
  induction members generalizing row others with
  | nil =>
    constructor
    · rintro ⟨⟩
      exact ⟨rfl, rfl, Nat.zero_le _⟩
    · rintro ⟨⟨⟩, hothers, -⟩
      cases others with
      | nil => rfl
      | cons other others => cases hothers
  | cons member members ih =>
    obtain ⟨key, doc⟩ := member
    cases key with
    | error flaw =>
      constructor
      · rintro ⟨⟩
      · rintro ⟨-, hothers, -⟩
        cases others with
        | nil => cases hothers
        | cons other others => cases (List.cons.inj hothers).1
    | ok key =>
      by_cases hkey : key ∈ fields.keys
      · obtain ⟨result, hresult⟩ := exists_put?_eq_some hkey doc row
        have howns : fields.owns (.ok key) = true := owns_ok.mpr hkey
        simp only [List.filter_cons, howns, Bool.not_true, Bool.false_eq_true, if_true, if_false,
          readAllMembers, readMembers, Read.ofFlaw, hresult, bind, Except.bind]
        cases result with
        | error cause => simp
        | ok next => apply ih
      · have howns : fields.owns (.ok key) = false := by simpa using mt owns_ok.mp hkey
        simp only [List.filter_cons, howns, Bool.not_false, Bool.false_eq_true, if_true, if_false]
        have hmember : fields.readAllMembers room ((.ok key, doc) :: members) row
            = doc.readTree room >>= fun json =>
              (fun found => (found.1, (key, json) :: found.2))
                <$> fields.readAllMembers room members row := by
          simp only [readAllMembers, Read.ofFlaw, put?_eq_none hkey, bind, Except.bind]
          rfl
        rw [hmember]
        simp only [Except.bind_eq_ok_iff, Except.map_eq_ok_iff, Doc.readTree_eq_ok_iff]
        constructor
        · rintro ⟨json, ⟨rfl, hdepth⟩, ⟨next, rest⟩, hrest, ⟨⟩⟩
          obtain ⟨hread, hothers, hdepths⟩ := ih.mp hrest
          rw [hothers]
          exact ⟨hread, rfl, Nat.max_le.mpr ⟨hdepth, hdepths⟩⟩
        · rintro ⟨hread, hothers, hdepth⟩
          cases others with
          | nil => cases hothers
          | cons other others =>
            obtain ⟨⟨⟩, hrest⟩ := List.cons.inj hothers
            obtain ⟨hjson, hdepths⟩ := Nat.max_le.mp hdepth
            exact ⟨_, ⟨rfl, hjson⟩, (filled, others), ih.mpr ⟨hread, hrest, hdepths⟩, rfl⟩

/-- The further members of an open record are members of the object. -/
theorem mem_of_readOpen {name : String} {room : ℕ} {members : List Member}
    {ending : Option Break} {values : Tuple types} {others : List (String × Json)}
    (hread : fields.readOpen name room (.object members ending) = .ok (values, others))
    {member : String × Json} (hmember : member ∈ others) :
  (.ok member.1, Doc.ofJson member.2) ∈ members
  := by
  rw [readOpen] at hread
  split at hread
  · cases hread
  · obtain ⟨⟨row, trees⟩, hrow, hread⟩ := Except.bind_eq_ok_iff.mp hread
    simp only [Except.bind_eq_ok_iff] at hread
    obtain ⟨-, -, found, -, hvalues⟩ := hread
    cases hvalues
    obtain ⟨-, hothers, -⟩ := readAllMembers_eq_ok_iff.mp hrow
    apply List.mem_of_mem_filter (p := fun member => !fields.owns member.1)
    rw [hothers, Doc.ofMembers_eq_map]
    apply List.mem_map_of_mem hmember

/-- The further members of an open record come in another order too. -/
theorem readOpen_of_reordered {doc other : Doc} (h : doc.Reordered other) (hkeys : doc.Unrepeated)
    (hfields : fields.Steady doc.Holds 0) {name : String} {room : ℕ} {values : Tuple types}
    {others : List (String × Json)}
    (hread : fields.readOpen name room doc = .ok (values, others)) :
  (Doc.ofJson (.object others)).Unrepeated
    ∧ ∃ lasts, (Doc.ofJson (.object others)).Reordered (Doc.ofJson (.object lasts))
      ∧ fields.readOpen name room other = .ok (values, lasts)
  := by
  cases doc with
  | object members ending =>
    obtain ⟨members', rfl⟩ := h.exists_object
    simp only [readOpen] at hread ⊢
    split at hread
    · cases hread
    · next hroom =>
      simp only [if_neg hroom, Except.bind_eq_ok_iff, Doc.readEnding_eq_ok_iff] at hread ⊢
      obtain ⟨⟨row, trees⟩, hrow, _, rfl, found, hfound, hvalues⟩ := hread
      cases hvalues
      rw [readAllMembers_eq_ok_iff] at hrow
      obtain ⟨hrow, hothers, hdepth⟩ := hrow
      have hkeys' := hkeys.filter fun key => !fields.owns key
      have hfurther := h.filter fun key => !fields.owns key
      rw [hothers] at hkeys' hfurther
      use hkeys'
      obtain ⟨tree, htree, -, hsame⟩ := hfurther.resolves hkeys' (.object trees) rfl
      cases tree with
      | object lasts =>
        obtain ⟨hlasts, -⟩ := Doc.object.inj htree
        rw [hlasts] at hfurther
        refine ⟨lasts, hfurther, (row, lasts), ?_, (), rfl, _, hfound, rfl⟩
        rw [readAllMembers_eq_ok_iff]
        refine ⟨?_, hlasts, ?_⟩
        · apply readMembers_of_reordered (h.filter fields.owns) (hkeys.filter fields.owns).1 hfields
            _ hrow
          exact fun _ _ hmember _ => List.mem_of_mem_filter hmember
        · simp only [Json.depth, Nat.add_right_cancel_iff] at hsame
          rwa [← hsame]
      | _ => cases htree
  | _ => exact absurd hread (Doc.refuse_ne_ok _ _ _)

end Fields

end StructuredQuery
