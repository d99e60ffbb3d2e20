import StructuredQuery.Proofs.Reading.Success
import StructuredQuery.Record

/-!
# What records are read

The values of a record, however it is given, come from the parts of the document: each was
read from one of them by the reader of its field, or stands for a field that is absent.
-/

namespace StructuredQuery

/-- The value stands for the field if the field is not there. -/
def Absent.Allows {α : Type} (absent : Absent α) (value : α) : Prop :=
  match absent with
  | .missing => False
  | .optional other | .default other => value = other

namespace Fields

variable {types : List Type} {parts : List Doc}

/-- Each value was read from one of the parts, or stands for an absent field. -/
def ComesFrom (parts : List Doc) {types : List Type} (fields : Fields types)
    (values : Tuple types) : Prop :=
  match fields, values with
  | .done, _ => True
  | .field _ read absent rest, (value, values) =>
    ((∃ part ∈ parts, read part = .ok value) ∨ absent.Allows value)
      ∧ rest.ComesFrom parts values

/-- Each value in a row was read from one of the parts. -/
def FilledFrom (parts : List Doc) {types : List Type} (fields : Fields types)
    (row : Row types) : Prop :=
  match fields, row with
  | .done, _ => True
  | .field _ read _ rest, (slot, slots) =>
    (∀ value ∈ slot, ∃ part ∈ parts, read part = .ok value) ∧ rest.FilledFrom parts slots

/-! ### Objects -/

theorem filledFrom_empty (fields : Fields types) :
  fields.FilledFrom parts (Row.empty types)
  := by
  induction fields with
  | done => trivial
  | field key read absent rest ih => exact ⟨by simp, ih⟩

theorem filledFrom_put? {fields : Fields types} {row filled : Row types} {key : String}
    {doc : Doc} (hdoc : doc ∈ parts) (hrow : fields.FilledFrom parts row)
    (h : fields.put? key doc row = some (.ok filled)) :
  fields.FilledFrom parts filled
  := by
  induction fields with
  | done => cases h
  | field own read absent rest ih =>
    obtain ⟨slot, slots⟩ := row
    simp only [put?] at h
    split at h
    · cases slot with
      | some value => cases h
      | none =>
        obtain ⟨value, hvalue, rfl⟩ := Except.map_eq_ok_iff.mp (Option.some.inj h)
        refine ⟨?_, hrow.2⟩
        intro other hother
        cases hother
        use doc
    · obtain ⟨result, hresult, h⟩ := Option.map_eq_some_iff.mp h
      obtain ⟨rest', rfl, rfl⟩ := Except.map_eq_ok_iff.mp h
      exact ⟨hrow.1, ih hrow.2 hresult⟩

theorem filledFrom_readMembers {fields : Fields types} {members : List Member}
    {row filled : Row types} (hmembers : ∀ member ∈ members, member.2 ∈ parts)
    (hrow : fields.FilledFrom parts row) (h : fields.readMembers members row = .ok filled) :
  fields.FilledFrom parts filled
  := by
  induction members generalizing row with
  | nil =>
    cases h
    exact hrow
  | cons member members ih =>
    obtain ⟨key, doc⟩ := member
    obtain ⟨hdoc, hrest⟩ := List.forall_mem_cons.mp hmembers
    simp only [readMembers, Except.bind_eq_ok_iff] at h
    obtain ⟨key, -, h⟩ := h
    split at h
    · next result hput =>
      obtain ⟨next, rfl, h⟩ := Except.bind_eq_ok_iff.mp h
      apply ih hrest (filledFrom_put? hdoc hrow hput) h
    · obtain ⟨-, -, h⟩ := Except.bind_eq_ok_iff.mp h
      apply ih hrest hrow h

theorem comesFrom_complete {fields : Fields types} {row : Row types} {values : Tuple types}
    (hrow : fields.FilledFrom parts row) (h : fields.complete row = .ok values) :
  fields.ComesFrom parts values
  := by
  induction fields with
  | done => trivial
  | field key read absent rest ih =>
    obtain ⟨slot, slots⟩ := row
    cases slot with
    | some found =>
      obtain ⟨value, hvalue, h⟩ := Except.bind_eq_ok_iff.mp h
      obtain ⟨rest', hrest, hvalues⟩ := Except.bind_eq_ok_iff.mp h
      cases hvalue
      cases hvalues
      exact ⟨Or.inl (hrow.1 found rfl), ih hrow.2 hrest⟩
    | none =>
      cases absent with
      | missing => cases h
      | optional other | default other =>
        obtain ⟨value, hvalue, h⟩ := Except.bind_eq_ok_iff.mp h
        obtain ⟨rest', hrest, hvalues⟩ := Except.bind_eq_ok_iff.mp h
        cases hvalue
        cases hvalues
        exact ⟨Or.inr rfl, ih hrow.2 hrest⟩

theorem comesFrom_ofMembers {fields : Fields types} {members : List Member}
    {ending : Option Break} {values : Tuple types}
    (h : fields.ofMembers members ending = .ok values) :
  fields.ComesFrom (members.map Prod.snd) values
  := by
  simp only [ofMembers, Except.bind_eq_ok_iff] at h
  obtain ⟨row, hrow, -, -, hvalues⟩ := h
  apply comesFrom_complete _ hvalues
  apply filledFrom_readMembers _ (filledFrom_empty fields) hrow
  intro member hmember
  apply List.mem_map_of_mem hmember

/-! ### Arrays -/

theorem comesFrom_readItems {fields : Fields types} {expected : String} {ending : Option Break}
    {index : ℕ} {items left : List Doc} {values : Tuple types} (hitems : items ⊆ parts)
    (h : fields.readItems expected ending index items = .ok (values, left)) :
  fields.ComesFrom parts values
  := by
  induction fields generalizing index items left with
  | done => trivial
  | field key read absent rest ih =>
    cases items with
    | cons item items =>
      simp only [readItems, Except.bind_eq_ok_iff] at h
      obtain ⟨first, hfirst, ⟨rest', left'⟩, hrest, hvalues⟩ := h
      obtain ⟨value, hread, rfl⟩ := Except.map_eq_ok_iff.mp hfirst
      cases hvalues
      obtain ⟨hitem, hothers⟩ := List.cons_subset.mp hitems
      exact ⟨Or.inl ⟨item, hitem, hread⟩, ih hothers hrest⟩
    | nil =>
      simp only [readItems] at h
      obtain ⟨-, -, h⟩ := Except.bind_eq_ok_iff.mp h
      cases absent with
      | missing | optional other => cases h
      | default other =>
        simp only [Except.bind_eq_ok_iff] at h
        obtain ⟨first, hfirst, ⟨rest', left'⟩, hrest, hvalues⟩ := h
        cases hfirst
        cases hvalues
        exact ⟨Or.inr rfl, ih (List.nil_subset _) hrest⟩

theorem comesFrom_ofItems {fields : Fields types} {source : Source} {name : String}
    {items : List Doc} {ending : Option Break} {values : Tuple types}
    (h : fields.ofItems source name items ending = .ok values) :
  fields.ComesFrom items values
  := by
  simp only [ofItems, Except.bind_eq_ok_iff] at h
  obtain ⟨⟨read, left⟩, hread, -, -, hvalues⟩ := h
  cases hvalues
  apply comesFrom_readItems (List.Subset.refl items) hread

/-! ### Records -/

/-- The values of a record come from parts inside the document. -/
theorem exists_of_read {fields : Fields types} {source : Source} {name : String} {room : ℕ}
    {doc : Doc} {values : Tuple types} (h : fields.read source name room doc = .ok values) :
  0 < min room doc.depth
    ∧ ∃ parts : List Doc, (∀ part ∈ parts, part.depth < doc.depth) ∧ fields.ComesFrom parts values
  := by
  cases doc with
  | object members ending =>
    simp only [read] at h
    split at h
    · cases h
    · next hroom =>
      exact ⟨Nat.lt_min.mpr ⟨Nat.pos_of_ne_zero hroom, Nat.succ_pos _⟩, _,
        fun part => Doc.depth_lt_object, comesFrom_ofMembers h⟩
  | array items ending =>
    simp only [read] at h
    split at h
    · cases h
    · next hroom =>
      exact ⟨Nat.lt_min.mpr ⟨Nat.pos_of_ne_zero hroom, Nat.succ_pos _⟩, _,
        fun item => Doc.depth_lt_array, comesFrom_ofItems h⟩
  | _ => exact absurd h (Doc.refuse_ne_ok _ _ _)

/-- The further members of an open record are trees that fit into the room. -/
theorem filledFrom_readAllMembers {fields : Fields types} {room : ℕ} {members : List Member}
    {row filled : Row types} {others : List (String × Json)}
    (hmembers : ∀ member ∈ members, member.2 ∈ parts) (hrow : fields.FilledFrom parts row)
    (h : fields.readAllMembers room members row = .ok (filled, others)) :
  fields.FilledFrom parts filled
    ∧ ∀ member ∈ others, ∃ part ∈ parts, part.readTree room = .ok member.2
  := by
  induction members generalizing row others with
  | nil =>
    cases h
    exact ⟨hrow, by simp⟩
  | cons member members ih =>
    obtain ⟨key, doc⟩ := member
    obtain ⟨hdoc, hrest⟩ := List.forall_mem_cons.mp hmembers
    simp only [readAllMembers, Except.bind_eq_ok_iff] at h
    obtain ⟨key, -, h⟩ := h
    split at h
    · next result hput =>
      obtain ⟨next, rfl, h⟩ := Except.bind_eq_ok_iff.mp h
      apply ih hrest (filledFrom_put? hdoc hrow hput) h
    · simp only [Except.bind_eq_ok_iff] at h
      obtain ⟨json, hjson, ⟨row', others'⟩, hothers, h⟩ := h
      cases h
      obtain ⟨hfilled, htrees⟩ := ih hrest hrow hothers
      exact ⟨hfilled, List.forall_mem_cons.mpr ⟨⟨doc, hdoc, hjson⟩, htrees⟩⟩

/-- The values of an open record come from parts inside the document, and its further
members are no deeper than they were there. -/
theorem exists_of_readOpen {fields : Fields types} {name : String} {room : ℕ} {doc : Doc}
    {values : Tuple types} {others : List (String × Json)}
    (h : fields.readOpen name room doc = .ok (values, others)) :
  0 < min room doc.depth
    ∧ (∃ parts : List Doc,
      (∀ part ∈ parts, part.depth < doc.depth) ∧ fields.ComesFrom parts values)
    ∧ ∀ member ∈ others, member.2.depth < min room doc.depth
  := by
  cases doc with
  | object members ending =>
    simp only [readOpen] at h
    split at h
    · cases h
    · next hroom =>
      simp only [Except.bind_eq_ok_iff] at h
      obtain ⟨⟨row, trees⟩, hrow, -, -, found, hfound, h⟩ := h
      cases h
      obtain ⟨hfilled, htrees⟩ := filledFrom_readAllMembers
        (fun member hmember => List.mem_map_of_mem hmember) (filledFrom_empty fields) hrow
      refine ⟨Nat.lt_min.mpr ⟨Nat.pos_of_ne_zero hroom, Nat.succ_pos _⟩,
        ⟨_, fun part => Doc.depth_lt_object, comesFrom_complete hfilled hfound⟩, ?_⟩
      intro member hmember
      obtain ⟨part, hpart, hread⟩ := htrees member hmember
      have hbound := Doc.bounded_tree _ hread
      have hdepth : part.depth < (Doc.object members ending).depth := Doc.depth_lt_object hpart
      rw [id_eq] at hbound
      omega
  | _ => exact absurd h (Doc.refuse_ne_ok _ _ _)

/-! ### Parts under known keys -/

/-- If a field has the key, its reader takes the document. -/
def Takes {types : List Type} (fields : Fields types) (key : String) (doc : Doc) : Prop :=
  match fields with
  | .done => True
  | .field own read _ rest =>
    if own = key then ∃ value, read doc = .ok value else rest.Takes key doc

theorem takes_of_put? {fields : Fields types} {key : String} {doc : Doc} (row : Row types)
    (h : ∀ result ∈ fields.put? key doc row, ∃ filled, result = .ok filled) :
  fields.Takes key doc
  := by
  induction fields with
  | done => trivial
  | field own read absent rest ih =>
    obtain ⟨slot, slots⟩ := row
    simp only [put?] at h
    rw [Takes]
    split
    · next hkey =>
      rw [if_pos hkey] at h
      obtain ⟨filled, hfilled⟩ := h _ rfl
      cases slot with
      | some value => cases hfilled
      | none =>
        obtain ⟨value, hvalue, -⟩ := Except.map_eq_ok_iff.mp hfilled
        use value
    · next hkey =>
      rw [if_neg hkey] at h
      apply ih
      intro result hresult
      obtain ⟨filled, hfilled⟩ := h _ (Option.mem_map_of_mem _ hresult)
      obtain ⟨other, hother, -⟩ := Except.map_eq_ok_iff.mp hfilled
      use other

theorem takes_of_readMembers {fields : Fields types} {members : List Member}
    {row filled : Row types} (h : fields.readMembers members row = .ok filled) {key : String}
    {doc : Doc} (hdoc : (.ok key, doc) ∈ members) :
  fields.Takes key doc
  := by
  induction members generalizing row with
  | nil => cases hdoc
  | cons member members ih =>
    simp only [readMembers, Except.bind_eq_ok_iff] at h
    obtain ⟨first, hfirst, h⟩ := h
    rcases List.mem_cons.mp hdoc with rfl | hdoc
    · obtain rfl := Except.ok.inj hfirst
      split at h
      · next result hput =>
        obtain ⟨next, rfl, -⟩ := Except.bind_eq_ok_iff.mp h
        apply takes_of_put? row
        rw [hput]
        rintro _ ⟨⟩
        use next
      · next hput =>
        apply takes_of_put? row
        rw [hput]
        simp
    · split at h
      · obtain ⟨next, -, h⟩ := Except.bind_eq_ok_iff.mp h
        apply ih h hdoc
      · obtain ⟨-, -, h⟩ := Except.bind_eq_ok_iff.mp h
        apply ih h hdoc

/-- Every member under the key of a field is taken by the reader of the field. -/
theorem takes_of_ofMembers {fields : Fields types} {members : List Member}
    {ending : Option Break} {values : Tuple types}
    (h : fields.ofMembers members ending = .ok values) {key : String} {doc : Doc}
    (hdoc : (.ok key, doc) ∈ members) :
  fields.Takes key doc
  := by
  simp only [ofMembers, Except.bind_eq_ok_iff] at h
  obtain ⟨row, hrow, -⟩ := h
  apply takes_of_readMembers hrow hdoc

theorem takes_of_readItems {fields : Fields types} (hkeys : fields.keys.Nodup)
    {expected : String} {ending : Option Break} {index : ℕ} {items left : List Doc}
    {values : Tuple types} (h : fields.readItems expected ending index items = .ok (values, left))
    {key : String} {doc : Doc} (hdoc : (key, doc) ∈ fields.keys.zip items) :
  fields.Takes key doc
  := by
  induction fields generalizing index items left with
  | done => trivial
  | field own read absent rest ih =>
    obtain ⟨hown, hkeys⟩ := List.nodup_cons.mp hkeys
    cases items with
    | nil => simp at hdoc
    | cons item items =>
      simp only [readItems, Except.bind_eq_ok_iff] at h
      obtain ⟨first, hfirst, ⟨rest', left'⟩, hrest, -⟩ := h
      obtain ⟨value, hread, rfl⟩ := Except.map_eq_ok_iff.mp hfirst
      rw [Takes]
      rcases List.mem_cons.mp hdoc with hfirst | hdoc
      · cases hfirst
        rw [if_pos rfl]
        use value
      · have hne : own ≠ key := by
          rintro rfl
          exact hown (List.of_mem_zip hdoc).1
        rw [if_neg hne]
        apply ih hkeys hrest hdoc

/-- Every item in the place of a field is taken by the reader of the field. -/
theorem takes_of_ofItems {fields : Fields types} (hkeys : fields.keys.Nodup) {source : Source}
    {name : String} {items : List Doc} {ending : Option Break} {values : Tuple types}
    (h : fields.ofItems source name items ending = .ok values) {key : String} {doc : Doc}
    (hdoc : (key, doc) ∈ fields.keys.zip items) :
  fields.Takes key doc
  := by
  simp only [ofItems, Except.bind_eq_ok_iff] at h
  obtain ⟨⟨read, left⟩, hread, -⟩ := h
  apply takes_of_readItems hkeys hread hdoc

end Fields

end StructuredQuery
