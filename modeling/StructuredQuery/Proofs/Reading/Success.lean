import StructuredQuery.Proofs.Double.Finite
import StructuredQuery.Proofs.Except
import StructuredQuery.Proofs.Json.Depth
import StructuredQuery.Words

/-!
# What documents are read

The documents that each reader takes, seen from the value that it gives.  A document that
is read as a tree is that tree.  `Doc.Bounded` says of a reader that what it gives is
written no deeper than the document was, and needs no more room than there was.
-/

namespace StructuredQuery

variable {α β : Type}

theorem Read.ofFlaw_eq_ok_iff {source : Except Flaw α} {value : α} :
  Read.ofFlaw source = .ok value ↔ source = .ok value
  := by
  cases source with
  | error flaw => simp [ofFlaw, fail]
  | ok first => simp [ofFlaw]

namespace Doc

variable {doc : Doc} {room : ℕ}

/-! ### Scalars and containers -/

theorem refuse_ne_ok (expected : String) (doc : Doc) (value : α) :
  doc.refuse expected ≠ .ok value
  := by
  rw [refuse, ne_eq, Except.bind_eq_ok_iff]
  rintro ⟨found, -, h⟩
  cases h

theorem readEnding_eq_ok_iff {ending : Option Break} {value : Unit} :
  readEnding ending = .ok value ↔ ending = none
  := by
  cases ending with
  | none => simp [readEnding]
  | some cut => simp [readEnding, Read.fail]

theorem readString_eq_ok_iff {json : Json} {text : String} :
  (ofJson json).readString = .ok text ↔ json = .string text
  := by
  cases json with
  | string own =>
    constructor
    · rintro ⟨⟩
      rfl
    · rintro ⟨⟩
      rfl
  | _ =>
    constructor
    · exact fun h => absurd h (refuse_ne_ok _ _ _)
    · nofun

theorem exists_of_readDouble {x : Double} (h : doc.readDouble = .ok x) :
  ∃ number, doc = .number (.ok number) ∧ number.toDouble = x
  := by
  cases doc with
  | number value =>
    obtain ⟨number, hnumber, hx⟩ := Except.map_eq_ok_iff.mp h
    use number
    rw [Read.ofFlaw_eq_ok_iff.mp hnumber]
    exact ⟨rfl, hx⟩
  | _ => exact absurd h (refuse_ne_ok _ _ _)

theorem isFinite_of_readDouble {x : Double} (h : doc.readDouble = .ok x) :
  x.IsFinite
  := by
  obtain ⟨number, -, rfl⟩ := exists_of_readDouble h
  apply number.isFinite_toDouble

theorem exists_of_readOption {read : Doc → Read α} {value : Option α}
    (h : readOption read doc = .ok value) :
  value = none ∨ doc ≠ .null ∧ ∃ inner, value = some inner ∧ read doc = .ok inner
  := by
  cases doc with
  | null =>
    cases h
    exact Or.inl rfl
  | _ =>
    obtain ⟨inner, hread, rfl⟩ := Except.map_eq_ok_iff.mp h
    exact Or.inr ⟨by simp, inner, rfl, hread⟩

/-- A value that may be null is read where null stands or the value can be read. -/
theorem exists_readOption_iff {read : Doc → Read α} :
  (∃ value, readOption read doc = .ok value) ↔ doc = .null ∨ ∃ value, read doc = .ok value
  := by
  cases doc with
  | null => exact ⟨fun _ => Or.inl rfl, fun _ => ⟨none, rfl⟩⟩
  | _ =>
    simp only [readOption, Except.map_eq_ok_iff, reduceCtorEq, false_or]
    constructor
    · rintro ⟨_, value, hvalue, -⟩
      exact ⟨value, hvalue⟩
    · rintro ⟨value, hvalue⟩
      exact ⟨some value, value, hvalue, rfl⟩

theorem exists_of_readList {item : Doc → Read α} {values : List α}
    (h : readList room item doc = .ok values) :
  0 < room ∧ ∃ items, doc = .array items none ∧ items.mapM item = .ok values
  := by
  cases doc with
  | array items ending =>
    simp only [readList] at h
    split at h
    · cases h
    · next hroom =>
      simp only [Except.bind_eq_ok_iff] at h
      obtain ⟨read, hitems, _, hending, hvalues⟩ := h
      cases hvalues
      rw [readEnding_eq_ok_iff] at hending
      subst hending
      exact ⟨Nat.pos_of_ne_zero hroom, items, rfl, hitems⟩
  | _ => exact absurd h (refuse_ne_ok _ _ _)

/-- Contents under a label stand in an object of their own. -/
theorem exists_of_readLabelled {known : List String} {case? : String → Option α}
    {content : α → Doc → Read β} {alone : α → Read β} {value : β}
    (halone : ∀ case, alone case ≠ .ok value)
    (h : readLabelled room known case? content alone doc = .ok value) :
  0 < room ∧ ∃ label case inner, doc = .object [(.ok label, inner)] none
    ∧ case? label = some case ∧ content case inner = .ok value
  := by
  have hlabel {label : String} {case : α} (h : readLabel known case? label = .ok case) :
      case? label = some case := by
    rw [readLabel] at h
    split at h
    · next found hfound =>
      cases h
      exact hfound
    · cases h
  cases doc with
  | object members ending =>
    simp only [readLabelled] at h
    split at h
    · cases h
    · next hroom =>
      cases members with
      | nil => cases h
      | cons member rest =>
        simp only [Except.bind_eq_ok_iff, Read.ofFlaw_eq_ok_iff] at h
        obtain ⟨label, hkey, case, hcase, read, hcontent, _, hending, hvalue⟩ := h
        cases hvalue
        have hrest : rest = [] ∧ ending = none := by
          cases ending with
          | some cut => cases hending
          | none =>
            cases rest with
            | nil => exact ⟨rfl, rfl⟩
            | cons other others => cases hending
        obtain ⟨rfl, rfl⟩ := hrest
        obtain ⟨key, inner⟩ := member
        subst hkey
        exact ⟨Nat.pos_of_ne_zero hroom, label, case, inner, rfl, hlabel hcase, hcontent⟩
  | string label =>
    simp only [readLabelled, Except.bind_eq_ok_iff] at h
    obtain ⟨-, -, case, -, hvalue⟩ := h
    exact absurd hvalue (halone case)
  | _ => cases h

/-- Contents under a label are what is read from the object around them. -/
theorem readLabelled_eq {known : List String} {case? : String → Option α}
    {content : α → Doc → Read β} {alone : α → Read β} {label : String} {case : α}
    (hlabel : case? label = some case) (json : Json) (hroom : 0 < room) :
  readLabelled room known case? content alone (ofJson (.object [(label, json)]))
    = content case (ofJson json)
  := by
  have hcase : readLabel known case? label = .ok case := by
    rw [readLabel, hlabel]
  simp only [readLabelled, ofJson, ofMembers, if_neg (Nat.ne_of_gt hroom), Read.ofFlaw, hcase, bind,
    Except.bind]
  cases content case (ofJson json) <;> rfl

/-! ### Trees -/

/-- Items of which each is read as a tree are those trees. -/
theorem eq_ofItems_of_mapM {read : Doc → Read Json}
    (hread : ∀ doc json, read doc = .ok json → doc = ofJson json) {items : List Doc}
    {trees : List Json} (h : items.mapM read = .ok trees) :
  items = ofItems trees
  := by
  induction items generalizing trees with
  | nil =>
    cases h
    rfl
  | cons item items ih =>
    rw [List.mapM_cons] at h
    simp only [Except.bind_eq_ok_iff] at h
    obtain ⟨tree, htree, rest, hrest, hvalue⟩ := h
    cases hvalue
    rw [ofItems, ← hread item tree htree, ← ih hrest]

/-- Members of which each is read as a tree are those trees under their keys. -/
theorem eq_ofMembers_of_mapM {read : Doc → Read Json}
    (hread : ∀ doc json, read doc = .ok json → doc = ofJson json) {members : List Member}
    {trees : List (String × Json)}
    (h : (members.mapM fun (member : Member) => do
      let key ← Read.ofFlaw member.1
      return (key, ← read member.2)) = .ok trees) :
  members = ofMembers trees
  := by
  induction members generalizing trees with
  | nil =>
    cases h
    rfl
  | cons member members ih =>
    rw [List.mapM_cons] at h
    simp only [Except.bind_eq_ok_iff, Read.ofFlaw_eq_ok_iff] at h
    obtain ⟨tree, ⟨key, hkey, value, hvalue, htree⟩, rest, hrest, hall⟩ := h
    cases hall
    cases htree
    rw [ofMembers, ← hread member.2 value hvalue, ← hkey, ← ih hrest]

/-- A document that is read as a tree is that tree. -/
theorem eq_ofJson_of_readTree {json : Json} (h : readTree room doc = .ok json) :
  doc = ofJson json
  := by
  induction room generalizing doc json with
  | zero =>
    cases doc with
    | number value | string value =>
      obtain ⟨read, hread, rfl⟩ := Except.map_eq_ok_iff.mp h
      rw [Read.ofFlaw_eq_ok_iff.mp hread, ofJson]
    | null | bool value =>
      cases h
      rfl
    | _ => cases h
  | succ room ih =>
    cases doc with
    | array items ending =>
      simp only [readTree, Except.bind_eq_ok_iff, readEnding_eq_ok_iff] at h
      obtain ⟨trees, htrees, -, rfl, hjson⟩ := h
      cases hjson
      rw [eq_ofItems_of_mapM (fun _ _ => ih) htrees, ofJson]
    | object members ending =>
      simp only [readTree] at h
      rw [Except.bind_eq_ok_iff] at h
      obtain ⟨trees, htrees, h⟩ := h
      simp only [Except.bind_eq_ok_iff, readEnding_eq_ok_iff] at h
      obtain ⟨-, rfl, hjson⟩ := h
      cases hjson
      rw [eq_ofMembers_of_mapM (fun _ _ => ih) htrees, ofJson]
    | number value | string value =>
      obtain ⟨read, hread, rfl⟩ := Except.map_eq_ok_iff.mp h
      rw [Read.ofFlaw_eq_ok_iff.mp hread, ofJson]
    | null | bool value =>
      cases h
      rfl
    | _ => cases h

/-- A document is read as a tree exactly if it is a tree for which there is room. -/
theorem readTree_eq_ok_iff {json : Json} :
  readTree room doc = .ok json ↔ doc = ofJson json ∧ json.depth ≤ room
  := by
  constructor
  · intro h
    obtain rfl := eq_ofJson_of_readTree h
    use rfl
    by_contra hdepth
    obtain ⟨cause, hcause⟩ := (reads_tree json room).error fun hboth => hdepth hboth.1
    rw [h] at hcause
    cases hcause
  · rintro ⟨rfl, hdepth⟩
    exact (reads_tree json room).ok ⟨hdepth, trivial⟩

/-- Items are read as trees exactly if they are trees for which there is room. -/
theorem mapM_readTree_eq_ok_iff {items : List Doc} {trees : List Json} :
  items.mapM (readTree room) = .ok trees ↔ items = ofItems trees ∧ Json.depthItems trees ≤ room
  := by
  constructor
  · intro h
    obtain rfl := eq_ofItems_of_mapM (fun _ _ => eq_ofJson_of_readTree) h
    use rfl
    by_contra hdepth
    obtain ⟨cause, hcause⟩ := (gives_items trees room).error hdepth
    rw [h] at hcause
    cases hcause
  · rintro ⟨rfl, hdepth⟩
    apply (gives_items trees room).ok hdepth

/-- A value is null only where null stands. -/
theorem ne_null_of_readValue {doc : Doc} {room : ℕ} {value : Value} (hdoc : doc ≠ .null)
    (h : doc.readValue room = .ok value) :
  value ≠ .null
  := by
  obtain ⟨json, hjson, rfl⟩ := Except.map_eq_ok_iff.mp h
  obtain rfl := eq_ofJson_of_readTree hjson
  intro hnull
  have hcanonical := congrArg Value.json hnull
  cases json with
  | null => exact hdoc rfl
  | _ => cases hcanonical

/-! ### Depth -/

/-- What the reader gives is written no deeper than the document, and fits into the room. -/
def Bounded (room : ℕ) (read : Doc → Read α) (encode : α → Json) : Prop :=
  ∀ ⦃doc value⦄, read doc = .ok value → (encode value).depth ≤ min room doc.depth

theorem bounded_tree (room : ℕ) :
  Bounded room (readTree room) id
  := by
  intro doc json h
  obtain ⟨rfl, hdepth⟩ := readTree_eq_ok_iff.mp h
  rw [depth_ofJson]
  exact Nat.le_min.mpr ⟨hdepth, Nat.le_refl _⟩

theorem bounded_value (room : ℕ) :
  Bounded room (readValue room) Value.json
  := by
  intro doc value h
  obtain ⟨json, hjson, rfl⟩ := Except.map_eq_ok_iff.mp h
  apply Nat.le_trans json.depth_canonical (bounded_tree room hjson)

/-- A list is bounded if its items are, one container less. -/
theorem bounded_list {item : Doc → Read α} {encode : α → Json} {inner bound : ℕ}
    (h : Bounded inner item encode) (hbound : 0 < room → inner < bound) :
  Bounded bound (readList room item) fun values => .array (values.map encode)
  := by
  intro doc values hread
  obtain ⟨hroom, items, rfl, hitems⟩ := exists_of_readList hread
  have hinner := hbound hroom
  suffices hdepth : Json.depthItems (values.map encode) ≤ min inner (depthItems items) by
    rw [Json.depth, depth]
    omega
  rw [Json.depthItems_le_iff, List.forall_mem_map]
  intro value hvalue
  obtain ⟨source, hsource, hread⟩ := Except.exists_of_mem_mapM hitems hvalue
  have hdepth := depth_le_depthItems hsource
  have hitem := h hread
  omega

end Doc

/-- A document is read from a text that holds nothing else. -/
theorem Document.read_eq (reader : Doc → Read α) (root : Doc) :
  read reader ⟨root, false⟩ = reader root
  := bind_pure _

/-- A text is read if its document is and nothing follows. -/
theorem Document.read_eq_ok_iff {reader : Doc → Read α} {document : Document} {value : α} :
  document.read reader = .ok value ↔ reader document.root = .ok value ∧ ¬document.followed
  := by
  rw [read, Except.bind_eq_ok_iff]
  constructor
  · rintro ⟨first, hfirst, h⟩
    split at h
    · cases h
    · next hfollowed =>
      cases h
      exact ⟨hfirst, hfollowed⟩
  · rintro ⟨hread, hfollowed⟩
    exact ⟨value, hread, by simp [hfollowed, pure, Except.pure]⟩

theorem Words.encode_of_strings? {items : List Json} {texts : List String}
    (h : strings? items = some texts) :
  texts.map Json.string = items
  := by
  induction items generalizing texts with
  | nil =>
    cases h
    rfl
  | cons item items ih =>
    cases item with
    | string text =>
      obtain ⟨rest, hrest, rfl⟩ := Option.map_eq_some_iff.mp h
      rw [List.map_cons, ih hrest]
    | _ => cases h

/-- Words are written as the tree that holds them. -/
theorem Words.encode_of_ofTree? {json : Json} {words : Words} (h : ofTree? json = some words) :
  words.encode = json
  := by
  cases json with
  | string text =>
    cases h
    rfl
  | array items =>
    obtain ⟨texts, htexts, rfl⟩ := Option.map_eq_some_iff.mp h
    rw [encode, encode_of_strings? htexts]
  | _ => cases h

theorem Words.bounded (room : ℕ) :
  Doc.Bounded room (Words.read room) Words.encode
  := by
  intro doc words h
  obtain ⟨json, hjson, h⟩ := Except.bind_eq_ok_iff.mp h
  split at h
  · next found hfound =>
    cases h
    rw [encode_of_ofTree? hfound]
    exact Doc.bounded_tree room hjson
  · cases h

end StructuredQuery
