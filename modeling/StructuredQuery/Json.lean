import StructuredQuery.Double

/-!
# JSON trees

`Json` is a JSON document as a tree, the members of an object in the order in which
they stand.  A number is a whole number of 64 bits or a finite double.
`Json.canonical` sorts the members of every object by key and keeps the last of
those that share a key; `Json.IsCanonical` says that a tree is of that form.
-/

namespace StructuredQuery

/-- A number of a JSON document. -/
inductive Number where
  | integer (value : Int) (fits : -0x8000000000000000 ≤ value ∧ value < 0x10000000000000000)
  | float (value : Double) (finite : value.IsFinite)
  deriving DecidableEq

namespace Number

/-- A whole number as a number, a double if it has more than 64 bits. -/
def ofInt (value : Int) : Option Number :=
  if h : -0x8000000000000000 ≤ value ∧ value < 0x10000000000000000 then some (.integer value h)
  else
    let x := Double.ofInt value
    if h : x.IsFinite then some (.float x h) else none

/-- The nearest double. -/
def toDouble : Number → Double
  | .integer value _ => Double.ofInt value
  | .float value _ => value

/-- The number is zero. -/
def isZero : Number → Bool
  | .integer value _ => value = 0
  | .float value _ => value.isZero

/-- Numerical equality of numbers of one form: whole numbers differ from doubles,
and the two zeros of the doubles are equal. -/
def same : Number → Number → Bool
  | .integer a _, .integer b _ => a = b
  | .float a _, .float b _ => a.same b
  | _, _ => false

end Number

/-- A JSON document. -/
inductive Json where
  | null
  | bool (value : Bool)
  | number (value : Number)
  | string (value : String)
  | array (items : List Json)
  | object (members : List (String × Json))

namespace Json

instance : Inhabited Json := ⟨.null⟩

mutual

/-- Equality of trees is decidable. -/
def decEq : (a b : Json) → Decidable (a = b)
  | .null, .null => .isTrue rfl
  | .bool a, .bool b => if h : a = b then .isTrue (by rw [h]) else .isFalse (by simp [h])
  | .number a, .number b => if h : a = b then .isTrue (by rw [h]) else .isFalse (by simp [h])
  | .string a, .string b => if h : a = b then .isTrue (by rw [h]) else .isFalse (by simp [h])
  | .array a, .array b =>
    match decEqItems a b with
    | .isTrue h => .isTrue (by rw [h])
    | .isFalse h => .isFalse (by simp [h])
  | .object a, .object b =>
    match decEqMembers a b with
    | .isTrue h => .isTrue (by rw [h])
    | .isFalse h => .isFalse (by simp [h])
  | .null, .bool _ | .null, .number _ | .null, .string _ | .null, .array _ | .null, .object _
  | .bool _, .null | .bool _, .number _ | .bool _, .string _ | .bool _, .array _
  | .bool _, .object _
  | .number _, .null | .number _, .bool _ | .number _, .string _ | .number _, .array _
  | .number _, .object _
  | .string _, .null | .string _, .bool _ | .string _, .number _ | .string _, .array _
  | .string _, .object _
  | .array _, .null | .array _, .bool _ | .array _, .number _ | .array _, .string _
  | .array _, .object _
  | .object _, .null | .object _, .bool _ | .object _, .number _ | .object _, .string _
  | .object _, .array _ => .isFalse (by simp)

/-- Equality of lists of trees is decidable. -/
def decEqItems : (a b : List Json) → Decidable (a = b)
  | [], [] => .isTrue rfl
  | [], _ :: _ | _ :: _, [] => .isFalse (by simp)
  | a :: as, b :: bs =>
    match decEq a b, decEqItems as bs with
    | .isTrue h, .isTrue t => .isTrue (by rw [h, t])
    | .isFalse h, _ => .isFalse (by simp [h])
    | _, .isFalse h => .isFalse (by simp [h])

/-- Equality of lists of members is decidable. -/
def decEqMembers : (a b : List (String × Json)) → Decidable (a = b)
  | [], [] => .isTrue rfl
  | [], _ :: _ | _ :: _, [] => .isFalse (by simp)
  | (k, a) :: as, (l, b) :: bs =>
    match decEq a b, decEqMembers as bs with
    | .isTrue h, .isTrue t =>
      if hk : k = l then .isTrue (by rw [h, t, hk]) else .isFalse (by simp [hk])
    | .isFalse h, _ => .isFalse (by simp [h])
    | _, .isFalse h => .isFalse (by simp [h])

end

instance : DecidableEq Json := decEq

/-- A double as a number, or `null` if it is infinite or no number. -/
def ofDouble (x : Double) : Json :=
  if h : x.IsFinite then .number (.float x h) else .null

/-! ### Depth -/

mutual

/-- The number of containers that the deepest part of the tree stands in. -/
def depth : Json → Nat
  | .array items => depthItems items + 1
  | .object members => depthMembers members + 1
  | _ => 0
termination_by structural json => json

/-- The depth of the deepest item. -/
def depthItems : List Json → Nat
  | [] => 0
  | item :: items => max item.depth (depthItems items)
termination_by structural items => items

/-- The depth of the deepest member. -/
def depthMembers : List (String × Json) → Nat
  | [] => 0
  | (_, value) :: members => max value.depth (depthMembers members)
termination_by structural members => members

end

/-! ### Canonical trees -/

/-- A member put into its place among sorted members, where it replaces one of the
same key. -/
def insertMember (key : String) (value : Json) : List (String × Json) → List (String × Json)
  | [] => [(key, value)]
  | (k, v) :: rest =>
    if key < k then (key, value) :: (k, v) :: rest
    else if k < key then (k, v) :: insertMember key value rest
    else (k, value) :: rest

/-- The members by key, the last of those with the same key. -/
def sortMembers (members : List (String × Json)) : List (String × Json) :=
  members.foldl (fun sorted member => insertMember member.1 member.2 sorted) []

mutual

/-- The tree with the members of all its objects sorted. -/
def canonical : Json → Json
  | .array items => .array (canonicalItems items)
  | .object members => .object (sortMembers (canonicalMembers members))
  | json => json
termination_by structural json => json

/-- The canonical form of each item. -/
def canonicalItems : List Json → List Json
  | [] => []
  | item :: items => item.canonical :: canonicalItems items
termination_by structural items => items

/-- The members with canonical values, in the same order. -/
def canonicalMembers : List (String × Json) → List (String × Json)
  | [] => []
  | (key, value) :: members => (key, value.canonical) :: canonicalMembers members
termination_by structural members => members

end

/-- The keys stand in ascending order, so that no key occurs twice. -/
def Sorted (members : List (String × Json)) : Prop :=
  (members.map Prod.fst).Pairwise (· < ·)

mutual

/-- The members of every object in the tree are sorted. -/
def IsCanonical : Json → Prop
  | .array items => CanonicalItems items
  | .object members => Sorted members ∧ CanonicalMembers members
  | _ => True
termination_by structural json => json

/-- Every item is canonical. -/
def CanonicalItems : List Json → Prop
  | [] => True
  | item :: items => item.IsCanonical ∧ CanonicalItems items
termination_by structural items => items

/-- The value of every member is canonical. -/
def CanonicalMembers : List (String × Json) → Prop
  | [] => True
  | (_, value) :: members => value.IsCanonical ∧ CanonicalMembers members
termination_by structural members => members

end

theorem canonicalItems_iff {items : List Json} :
  CanonicalItems items ↔ ∀ item ∈ items, item.IsCanonical
  := by
  induction items with
  | nil => simp [CanonicalItems]
  | cons item items ih => simp [CanonicalItems, ih]

theorem canonicalMembers_iff {members : List (String × Json)} :
  CanonicalMembers members ↔ ∀ member ∈ members, member.2.IsCanonical
  := by
  induction members with
  | nil => simp [CanonicalMembers]
  | cons member members ih => simp [CanonicalMembers, ih]

theorem mem_insertMember {key : String} {value : Json} {members : List (String × Json)}
    {member : String × Json} (h : member ∈ insertMember key value members) :
  member.2 = value ∧ (member.1 = key ∨ member.1 ∈ members.map Prod.fst) ∨ member ∈ members
  := by
  induction members with
  | nil =>
    simp only [insertMember, List.mem_singleton] at h
    simp [h]
  | cons head rest ih =>
    obtain ⟨k, v⟩ := head
    simp only [insertMember] at h
    split at h
    · simp only [List.mem_cons] at h ⊢
      rcases h with rfl | h
      · simp
      · exact Or.inr h
    · split at h
      · simp only [List.mem_cons, List.map_cons] at h ⊢
        rcases h with rfl | h
        · simp
        · rcases ih h with ⟨hv, hk⟩ | hm
          · exact Or.inl ⟨hv, hk.imp id Or.inr⟩
          · exact Or.inr (Or.inr hm)
      · simp only [List.mem_cons, List.map_cons] at h ⊢
        rcases h with rfl | h
        · exact Or.inl ⟨rfl, Or.inr (Or.inl rfl)⟩
        · exact Or.inr (Or.inr h)

theorem sorted_insertMember {key : String} {value : Json} {members : List (String × Json)}
    (h : Sorted members) :
  Sorted (insertMember key value members)
  := by
  induction members with
  | nil => simp [Sorted, insertMember]
  | cons head rest ih =>
    obtain ⟨k, v⟩ := head
    simp only [Sorted, List.map_cons, List.pairwise_cons] at h
    simp only [insertMember]
    split
    · next hlt =>
      simp only [Sorted, List.map_cons, List.pairwise_cons, List.mem_cons]
      refine ⟨?_, h⟩
      rintro k' (rfl | hk')
      · exact hlt
      · exact String.lt_trans hlt (h.1 k' hk')
    · split
      · next hlt =>
        simp only [Sorted, List.map_cons, List.pairwise_cons]
        refine ⟨?_, ih h.2⟩
        intro k' hk'
        obtain ⟨member, hmem, rfl⟩ := List.mem_map.1 hk'
        rcases mem_insertMember hmem with ⟨-, hk | hk⟩ | hm
        · rw [hk]
          exact hlt
        · exact h.1 _ hk
        · exact h.1 _ (List.mem_map_of_mem hm)
      · simpa only [Sorted, List.map_cons, List.pairwise_cons] using h

theorem canonicalMembers_insertMember {key : String} {value : Json}
    {members : List (String × Json)} (hvalue : value.IsCanonical)
    (h : CanonicalMembers members) :
  CanonicalMembers (insertMember key value members)
  := by
  rw [canonicalMembers_iff] at h ⊢
  intro member hmem
  rcases mem_insertMember hmem with ⟨hv, -⟩ | hm
  · rw [hv]
    exact hvalue
  · exact h member hm

/-- Sorting gives members in ascending order, and keeps the canonical values. -/
theorem sortMembers_isCanonical {members : List (String × Json)}
    (h : CanonicalMembers members) :
  (object (sortMembers members)).IsCanonical
  := by
  suffices ∀ sorted, Sorted sorted → CanonicalMembers sorted →
      (object (members.foldl
        (fun sorted member => insertMember member.1 member.2 sorted) sorted)).IsCanonical by
    exact this [] (by simp [Sorted]) trivial
  induction members with
  | nil => exact fun sorted hs hc => ⟨hs, hc⟩
  | cons member members ih =>
    intro sorted hs hc
    rw [canonicalMembers_iff] at h
    apply ih
    · rw [canonicalMembers_iff]
      exact fun m hm => h m (List.mem_cons_of_mem _ hm)
    · exact sorted_insertMember hs
    · exact canonicalMembers_insertMember (h member (List.mem_cons_self ..)) hc

mutual

theorem isCanonical_canonical : (json : Json) → json.canonical.IsCanonical
  | .null | .bool _ | .number _ | .string _ => trivial
  | .array items => canonicalItems_canonical items
  | .object members => sortMembers_isCanonical (canonicalMembers_canonical members)

theorem canonicalItems_canonical : (items : List Json) → CanonicalItems (canonicalItems items)
  | [] => trivial
  | item :: items => ⟨isCanonical_canonical item, canonicalItems_canonical items⟩

theorem canonicalMembers_canonical :
    (members : List (String × Json)) → CanonicalMembers (canonicalMembers members)
  | [] => trivial
  | (_, value) :: members => ⟨isCanonical_canonical value, canonicalMembers_canonical members⟩

end

end Json

end StructuredQuery
