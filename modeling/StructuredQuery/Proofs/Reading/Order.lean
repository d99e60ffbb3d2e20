import StructuredQuery.Proofs.Json.Order
import StructuredQuery.Proofs.Reading.Success
import StructuredQuery.RangeOperator

/-!
# Reading in any order

A reader is steady at a document if it reads every document that differs from it in the order
of members alike.  The readers of single values are steady, those of trees where no object
repeats a key, and those of containers where the readers of the parts are.
-/

namespace StructuredQuery

variable {α β : Type}

namespace Doc

variable {doc : Doc} {read : Doc → Read α}

/-- What the reader reads from the document, it reads from it in any order. -/
def Steady (read : Doc → Read α) (doc : Doc) : Prop :=
  ∀ other, doc.Reordered other → ∀ value, read doc = .ok value → read other = .ok value

theorem Steady.map (f : α → β) (h : Steady read doc) :
  Steady (fun doc => f <$> read doc) doc
  := by
  intro other hother value hread
  obtain ⟨first, hfirst, rfl⟩ := Except.map_eq_ok_iff.mp hread
  apply Except.map_eq_ok_iff.mpr ⟨first, h other hother first hfirst, rfl⟩

theorem Steady.bind (h : Steady read doc) (next : α → Read β) :
  Steady (fun doc => read doc >>= next) doc
  := by
  intro other hother value hread
  obtain ⟨first, hfirst, hnext⟩ := Except.bind_eq_ok_iff.mp hread
  apply Except.bind_eq_ok_iff.mpr ⟨first, h other hother first hfirst, hnext⟩

/-! ### Scalars -/

/-- A reader that takes no containers is steady: nothing else has parts in an order. -/
theorem steady_of_scalar (harray : ∀ items ending value, read (.array items ending) ≠ .ok value)
    (hobject : ∀ members ending value, read (.object members ending) ≠ .ok value) (doc : Doc) :
  Steady read doc
  := by
  intro other h value hread
  cases h with
  | same => apply hread
  | array _ ending => exact absurd hread (harray _ ending value)
  | object _ _ ending => exact absurd hread (hobject _ ending value)

theorem steady_string (doc : Doc) :
  Steady readString doc
  := by
  apply steady_of_scalar
  · exact fun _ _ => refuse_ne_ok _ _
  · exact fun _ _ => refuse_ne_ok _ _

theorem steady_double (doc : Doc) :
  Steady readDouble doc
  := by
  apply steady_of_scalar
  · exact fun _ _ => refuse_ne_ok _ _
  · exact fun _ _ => refuse_ne_ok _ _

theorem steady_bool (doc : Doc) :
  Steady readBool doc
  := by
  apply steady_of_scalar
  · exact fun _ _ => refuse_ne_ok _ _
  · exact fun _ _ => refuse_ne_ok _ _

/-- What is null stays null, and nothing else becomes it. -/
theorem steady_option (h : Steady read doc) :
  Steady (readOption read) doc
  := by
  intro other hother value hread
  cases hother with
  | same => apply hread
  | array hpairs ending => apply h.map some _ (.array hpairs ending) value hread
  | object hpairs hperm ending => apply h.map some _ (.object hpairs hperm ending) value hread

/-! ### Containers -/

/-- The items of an array. -/
def items : Doc → List Doc
  | .array items _ => items
  | _ => []

theorem Unrepeated.of_mem_items (h : doc.Unrepeated) {part : Doc} (hpart : part ∈ doc.items) :
  part.Unrepeated
  := by
  cases doc with
  | array items ending => apply unrepeatedItems_iff.mp h part hpart
  | _ => cases hpart

theorem mapM_of_steady {pairs : List (Doc × Doc)} (hpairs : ∀ pair ∈ pairs, pair.1.Reordered pair.2)
    (h : ∀ pair ∈ pairs, Steady read pair.1) {values : List α}
    (hread : (pairs.map Prod.fst).mapM read = .ok values) :
  (pairs.map Prod.snd).mapM read = .ok values
  := by
  rw [List.mapM_map] at hread ⊢
  rw [← hread]
  apply Except.mapM_congr
  intro pair hpair
  obtain ⟨value, hvalue⟩ := Except.exists_of_mapM hread pair hpair
  rw [hvalue]
  apply h pair hpair pair.2 (hpairs pair hpair) value hvalue

/-- A list is read in any order if its items are. -/
theorem steady_list {room : ℕ} {item : Doc → Read α} (h : ∀ part ∈ doc.items, Steady item part) :
  Steady (readList room item) doc
  := by
  intro other hother values hread
  obtain ⟨hroom, items, rfl, hitems⟩ := exists_of_readList hread
  obtain ⟨pairs, rfl, rfl, hpairs⟩ := hother.of_array
  have hmapM := mapM_of_steady hpairs (List.forall_mem_map.mp h) hitems
  rw [readList, if_neg (Nat.ne_of_gt hroom), hmapM]
  rfl

/-- Contents under a label are read in any order if they are alone. -/
theorem steady_labelled {room : ℕ} {known : List String} {case? : String → Option α}
    {content : α → Doc → Read β} {alone : α → Read β}
    (halone : ∀ case value, alone case ≠ .ok value)
    (h : ∀ label case inner, doc = .object [(.ok label, inner)] none → case? label = some case →
      Steady (content case) inner) :
  Steady (readLabelled room known case? content alone) doc
  := by
  intro other hother value hread
  obtain ⟨hroom, label, case, inner, rfl, hcase, hinner⟩ :=
    exists_of_readLabelled (halone · value) hread
  obtain ⟨part, rfl, hpart⟩ := hother.of_labelled
  have hother := h label case inner rfl hcase part hpart value hinner
  simp only [readLabelled, if_neg (Nat.ne_of_gt hroom), Read.ofFlaw, readLabel, hcase, bind,
    Except.bind, hother]
  rfl

/-! ### Trees -/

/-- A value is read in any order if no object in it repeats a key. -/
theorem steady_value (h : doc.Unrepeated) (room : ℕ) :
  Steady (readValue room) doc
  := by
  intro other hother value hread
  obtain ⟨json, hjson, rfl⟩ := Except.map_eq_ok_iff.mp hread
  obtain ⟨hdoc, hdepth⟩ := readTree_eq_ok_iff.mp hjson
  obtain ⟨tree, rfl, hcanonical, hsame⟩ := hother.resolves h json hdoc
  rw [hsame] at hdepth
  rw [readValue, readTree_eq_ok_iff.mpr ⟨rfl, hdepth⟩]
  simp only [Value.ofJson, hcanonical]
  rfl

end Doc

/-! ### Operators and words -/

theorem RangeOperator.steady (doc : Doc) :
  doc.Steady read
  := by
  apply (Doc.steady_string doc).bind

theorem Words.strings?_canonicalItems (items : List Json) :
  strings? (Json.canonicalItems items) = strings? items
  := by
  induction items with
  | nil => rfl
  | cons item items ih =>
    cases item with
    | string text => simp only [Json.canonicalItems, Json.canonical, strings?, ih]
    | _ => rfl

/-- Words stand in no objects, so the canonical form of a tree holds the same words. -/
theorem Words.ofTree?_canonical (json : Json) :
  ofTree? json.canonical = ofTree? json
  := by
  cases json with
  | array items => simp only [Json.canonical, ofTree?, strings?_canonicalItems]
  | _ => rfl

theorem Words.steady {doc : Doc} (h : doc.Unrepeated) (room : ℕ) :
  doc.Steady (Words.read room)
  := by
  intro other hother words hread
  obtain ⟨json, hjson, hwords⟩ := Except.bind_eq_ok_iff.mp hread
  obtain ⟨hdoc, hdepth⟩ := Doc.readTree_eq_ok_iff.mp hjson
  obtain ⟨tree, rfl, hcanonical, hsame⟩ := hother.resolves h json hdoc
  rw [hsame] at hdepth
  rw [← ofTree?_canonical, hcanonical, ofTree?_canonical] at hwords
  rw [read, Doc.readTree_eq_ok_iff.mpr ⟨rfl, hdepth⟩]
  apply hwords

/-- A text is read in any order if its document is. -/
theorem Document.read_of_reordered {document other : Document} (h : document.Reordered other)
    {reader : Doc → Read α} (hsteady : document.root.Steady reader) {value : α}
    (hread : document.read reader = .ok value) :
  other.read reader = .ok value
  := by
  rw [read_eq_ok_iff] at hread ⊢
  obtain ⟨hroot, hfollowed⟩ := h
  rw [← hfollowed]
  exact ⟨hsteady other.root hroot value hread.1, hread.2⟩

end StructuredQuery
