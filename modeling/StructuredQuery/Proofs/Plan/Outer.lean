import StructuredQuery.Plan.Reader
import StructuredQuery.Proofs.Reading.Success

/-!
# How a plan names its operation

The outermost plan is read into a tree, which it is, exactly if it names its operation once
and by its label.  A plan inside a tree may also name it by its number.
-/

namespace StructuredQuery

namespace Plan

namespace Op

theorem ofLabel?_label (op : Op) :
  ofLabel? op.label = some op
  := by
  cases op <;> decide

theorem ofLabel_eq_ok_iff {label : String} {op : Op} :
  ofLabel label = .ok op ↔ label = op.label
  := by
  constructor
  · intro h
    rw [ofLabel, Doc.readLabel] at h
    split at h
    · next found hfound =>
      cases h
      symm
      simpa using List.find?_some hfound
    · cases h
  · rintro rfl
    rw [ofLabel, Doc.readLabel, ofLabel?_label]

/-- The name of an operation is a string. -/
theorem read_eq_ok_iff {doc : Doc} {op : Op} :
  read doc = .ok op ↔ doc = .string (.ok op.label)
  := by
  cases doc with
  | string label =>
    simp only [read, Except.bind_eq_ok_iff, Read.ofFlaw_eq_ok_iff, ofLabel_eq_ok_iff]
    constructor
    · rintro ⟨text, rfl, rfl⟩
      rfl
    · rintro ⟨⟩
      exact ⟨_, rfl, rfl⟩
  | _ =>
    constructor
    · intro h
      exact absurd h (Doc.refuse_ne_ok _ _ _)
    · rintro ⟨⟩

end Op

/-- The parts of a document that hold arguments. -/
def Arguments.parts : Arguments → List Doc
  | .members list _ => list.map Prod.snd
  | .items list _ => list

/-! ### The name of the operation -/

/-- The members of an object that stand under the key of the operation. -/
def opMembers (members : List (String × Json)) : List Json :=
  (members.filter fun member => member.1 = opKey).map Prod.snd

/-- The tree names an operation once, by its label: under its key, or as the first item. -/
def NamesOp : Json → Prop
  | .object members => ∃ op : Op, opMembers members = [.string op.label]
  | .array items => ∃ op : Op, items.head? = some (.string op.label)
  | _ => False

theorem opMembers_cons_self (json : Json) (members : List (String × Json)) :
  opMembers ((opKey, json) :: members) = json :: opMembers members
  := by
  simp [opMembers]

theorem opMembers_cons_of_ne {key : String} (h : key ≠ opKey) (json : Json)
    (members : List (String × Json)) :
  opMembers ((key, json) :: members) = opMembers members
  := by
  simp [opMembers, h]

/-! ### Reading the outermost plan -/

theorem readMembers_op (room : ℕ) (seen : Bool) (doc : Doc) (members : List Member) :
  readMembers room seen ((.ok opKey, doc) :: members)
    = if seen then .error (.duplicateField opKey)
      else Op.read doc >>= fun op =>
        (fun found => ((opKey, .string op.label) :: found.1, found.2))
          <$> readMembers room true members
  := by
  cases seen <;> rfl

theorem readMembers_of_ne (room : ℕ) (seen : Bool) {key : String} (h : key ≠ opKey) (doc : Doc)
    (members : List Member) :
  readMembers room seen ((.ok key, doc) :: members)
    = doc.readTree room >>= fun json =>
        (fun found => ((key, json) :: found.1, found.2)) <$> readMembers room seen members
  := by
  simp only [readMembers, Read.ofFlaw, bind, Except.bind, if_neg h]
  rfl

/-- Members that are read are trees, and name the operation at most once, by its label, or not
at all if it has been named before. -/
theorem eq_ofMembers_of_readMembers {room : ℕ} {seen last : Bool} {members : List Member}
    {trees : List (String × Json)} (h : readMembers room seen members = .ok (trees, last)) :
  members = Doc.ofMembers trees ∧ Json.depthMembers trees ≤ room
    ∧ (opMembers trees = [] ∧ last = seen
      ∨ (∃ op : Op, opMembers trees = [.string op.label]) ∧ seen = false ∧ last = true)
  := by
  induction members generalizing seen trees last with
  | nil =>
    cases h
    exact ⟨rfl, Nat.zero_le _, Or.inl ⟨rfl, rfl⟩⟩
  | cons member members ih =>
    obtain ⟨source, doc⟩ := member
    cases source with
    | error flaw => cases h
    | ok key =>
      by_cases hkey : key = opKey
      · subst hkey
        rw [readMembers_op] at h
        split at h
        · cases h
        · obtain ⟨op, hop, h⟩ := Except.bind_eq_ok_iff.mp h
          obtain ⟨⟨rest, found⟩, hrest, h⟩ := Except.map_eq_ok_iff.mp h
          cases h
          obtain ⟨rfl, hdepth, hnone | hsome⟩ := ih hrest
          · obtain rfl := Op.read_eq_ok_iff.mp hop
            refine ⟨rfl, Nat.max_le.mpr ⟨Nat.zero_le _, hdepth⟩, Or.inr ⟨⟨op, ?_⟩, ?_, hnone.2⟩⟩
            · rw [opMembers_cons_self, hnone.1]
            · simpa using ‹¬seen = true›
          · simp at hsome
      · rw [readMembers_of_ne room seen hkey] at h
        obtain ⟨json, hjson, h⟩ := Except.bind_eq_ok_iff.mp h
        obtain ⟨⟨rest, found⟩, hrest, h⟩ := Except.map_eq_ok_iff.mp h
        cases h
        obtain ⟨rfl, hdepth, hmembers⟩ := ih hrest
        obtain ⟨rfl, hroom⟩ := Doc.readTree_eq_ok_iff.mp hjson
        rw [opMembers_cons_of_ne hkey]
        exact ⟨rfl, Nat.max_le.mpr ⟨hroom, hdepth⟩, hmembers⟩

/-- Trees that name the operation at most once, by its label, are read as themselves. -/
theorem readMembers_ofMembers {room : ℕ} {seen : Bool} {trees : List (String × Json)}
    (hdepth : Json.depthMembers trees ≤ room)
    (h : opMembers trees = [] ∨ (∃ op : Op, opMembers trees = [.string op.label]) ∧ seen = false) :
  readMembers room seen (Doc.ofMembers trees) = .ok (trees, seen || !(opMembers trees).isEmpty)
  := by
  induction trees generalizing seen with
  | nil => simp [Doc.ofMembers, readMembers, opMembers]
  | cons tree trees ih =>
    obtain ⟨key, json⟩ := tree
    rw [Json.depthMembers, Nat.max_le] at hdepth
    rw [Doc.ofMembers]
    by_cases hkey : key = opKey
    · subst hkey
      rw [opMembers_cons_self] at h
      rcases h with hnone | ⟨⟨op, hop⟩, rfl⟩
      · cases hnone
      · obtain ⟨rfl, hrest⟩ := List.cons.inj hop
        have hmembers : readMembers room true (Doc.ofMembers trees) = .ok (trees, true) :=
          ih hdepth.2 (Or.inl hrest)
        rw [readMembers_op, Doc.ofJson, Op.read_eq_ok_iff.mpr rfl, opMembers_cons_self]
        simp only [Bool.false_eq_true, if_false, bind, Except.bind, hmembers]
        rfl
    · rw [opMembers_cons_of_ne hkey] at h ⊢
      rw [readMembers_of_ne room seen hkey, Doc.readTree_eq_ok_iff.mpr ⟨rfl, hdepth.1⟩,
        ih hdepth.2 h]
      rfl

theorem of_readOuter {room : ℕ} {doc : Doc} {json : Json} (h : readOuter room doc = .ok json) :
  doc = Doc.ofJson json ∧ json.depth ≤ room ∧ NamesOp json
  := by
  cases doc with
  | object members ending =>
    simp only [readOuter] at h
    split at h
    · cases h
    · next hroom =>
      obtain ⟨⟨trees, last⟩, hmembers, h⟩ := Except.bind_eq_ok_iff.mp h
      obtain ⟨_, hending, h⟩ := Except.bind_eq_ok_iff.mp h
      obtain rfl := Doc.readEnding_eq_ok_iff.mp hending
      obtain ⟨rfl, hdepth, ⟨-, rfl⟩ | ⟨hop, -, rfl⟩⟩ := eq_ofMembers_of_readMembers hmembers
      · cases h
      · cases h
        refine ⟨rfl, ?_, hop⟩
        show Json.depthMembers trees + 1 ≤ room
        omega
  | array items ending =>
    simp only [readOuter] at h
    split at h
    · cases h
    · next hroom =>
      cases items with
      | nil =>
        obtain ⟨_, -, h⟩ := Except.bind_eq_ok_iff.mp h
        cases h
      | cons item items =>
        obtain ⟨op, hop, h⟩ := Except.bind_eq_ok_iff.mp h
        obtain ⟨trees, htrees, h⟩ := Except.bind_eq_ok_iff.mp h
        obtain ⟨_, hending, h⟩ := Except.bind_eq_ok_iff.mp h
        cases h
        obtain rfl := Doc.readEnding_eq_ok_iff.mp hending
        obtain rfl := Op.read_eq_ok_iff.mp hop
        obtain ⟨rfl, hdepth⟩ := Doc.mapM_readTree_eq_ok_iff.mp htrees
        refine ⟨rfl, ?_, op, rfl⟩
        show max 0 (Json.depthItems trees) + 1 ≤ room
        omega
  | _ => exact absurd h (Doc.refuse_ne_ok _ _ _)

theorem readOuter_ofJson {room : ℕ} {json : Json} (hdepth : json.depth ≤ room)
    (hop : NamesOp json) :
  readOuter room (Doc.ofJson json) = .ok json
  := by
  cases json with
  | object members =>
    obtain ⟨op, hop⟩ := hop
    rw [Json.depth] at hdepth
    have hmembers := readMembers_ofMembers (Nat.le_sub_one_of_lt hdepth) (Or.inr ⟨⟨op, hop⟩, rfl⟩)
    rw [Doc.ofJson, readOuter, if_neg (Nat.ne_zero_of_lt hdepth), hmembers, hop]
    rfl
  | array items =>
    obtain ⟨op, hop⟩ := hop
    cases items with
    | nil => cases hop
    | cons item items =>
      cases hop
      have hroom : max 0 (Json.depthItems items) < room := hdepth
      have hitems : (Doc.ofItems items).mapM (Doc.readTree (room - 1)) = .ok items :=
        Doc.mapM_readTree_eq_ok_iff.mpr ⟨rfl, by omega⟩
      have hread : Op.read (.string (.ok op.label)) = .ok op := Op.read_eq_ok_iff.mpr rfl
      simp only [Doc.ofJson, Doc.ofItems, readOuter, if_neg (Nat.ne_zero_of_lt hroom), hread,
        hitems, bind, Except.bind]
      rfl
  | _ => cases hop

/-- The outermost plan is read into a tree exactly if it is a tree that names its operation and
for which there is room. -/
theorem readOuter_eq_ok_iff {room : ℕ} {doc : Doc} {json : Json} :
  readOuter room doc = .ok json ↔ doc = Doc.ofJson json ∧ json.depth ≤ room ∧ NamesOp json
  := by
  constructor
  · apply of_readOuter
  · rintro ⟨rfl, hdepth, hop⟩
    apply readOuter_ofJson hdepth hop

/-- A plan is read from a tree for which there is room if the tree names its operation and is
read as a plan inside a tree would be. -/
theorem read_eq_ok_iff {doc : Doc} {plan : Plan} :
  read doc = .ok plan
    ↔ ∃ json, doc = Doc.ofJson json ∧ json.depth ≤ fullRoom ∧ NamesOp json
      ∧ readNode fullRoom doc = .ok plan
  := by
  rw [read, Except.bind_eq_ok_iff]
  constructor
  · rintro ⟨json, hjson, hread⟩
    obtain ⟨rfl, hdepth, hop⟩ := readOuter_eq_ok_iff.mp hjson
    use json, rfl, hdepth, hop
    exact hread
  · rintro ⟨json, rfl, hdepth, hop, hread⟩
    use json, readOuter_eq_ok_iff.mpr ⟨rfl, hdepth, hop⟩
    exact hread

/-! ### Naming an operation inside a tree -/

/-- The tree gives the number of an operation where its name should stand. -/
def NumbersOp : Json → Prop
  | .object members => ∃ number, opMembers members = [.number number]
  | .array items => ∃ number, items.head? = some (.number number)
  | _ => False

/-- An operation inside a tree has a label or a number. -/
theorem Op.eq_of_readAny {json : Json} {op : Op} (h : readAny (Doc.ofJson json) = .ok op) :
  json = .string op.label ∨ ∃ number, json = .number number
  := by
  cases json with
  | number number => exact Or.inr ⟨number, rfl⟩
  | string text =>
    have hread : read (.string (.ok text)) = .ok op := h
    have hdoc := read_eq_ok_iff.mp hread
    cases hdoc
    exact Or.inl rfl
  | _ => exact absurd h (Doc.refuse_ne_ok _ _ _)

theorem findOp_op (found : Option Op) (doc : Doc) (members : List Member) :
  findOp found ((.ok opKey, doc) :: members)
    = if found.isSome then .error (.duplicateField opKey)
      else Op.readAny doc >>= fun op => findOp (some op) members
  := by
  cases found <;> rfl

theorem findOp_of_ne (found : Option Op) {key : String} (h : key ≠ opKey) (doc : Doc)
    (members : List Member) :
  findOp found ((.ok key, doc) :: members) = findOp found members
  := by
  simp only [findOp, Read.ofFlaw, bind, Except.bind, if_neg h]

/-- An operation that is found stands once under its key, unless it was found before. -/
theorem opMembers_of_findOp {found : Option Op} {trees : List (String × Json)} {op : Op}
    (h : findOp found (Doc.ofMembers trees) = .ok op) :
  opMembers trees = [] ∧ found = some op
    ∨ found = none ∧ ∃ json, opMembers trees = [json] ∧ Op.readAny (Doc.ofJson json) = .ok op
  := by
  induction trees generalizing found with
  | nil =>
    cases found with
    | none => cases h
    | some first =>
      cases h
      exact Or.inl ⟨rfl, rfl⟩
  | cons tree trees ih =>
    obtain ⟨key, json⟩ := tree
    rw [Doc.ofMembers] at h
    by_cases hkey : key = opKey
    · subst hkey
      rw [findOp_op] at h
      cases found with
      | some first => cases h
      | none =>
        obtain ⟨first, hfirst, h⟩ := Except.bind_eq_ok_iff.mp h
        rw [opMembers_cons_self]
        rcases ih h with ⟨hnone, hop⟩ | ⟨hnone, -⟩
        · cases hop
          rw [hnone]
          exact Or.inr ⟨rfl, json, rfl, hfirst⟩
        · cases hnone
    · rw [findOp_of_ne found hkey] at h
      rw [opMembers_cons_of_ne hkey]
      apply ih h

/-- A tree from which a plan is read names its operation, by its label or by its number. -/
theorem namesOp_or_numbersOp_of_readNode {room : ℕ} {json : Json} {plan : Plan}
    (h : readNode room (Doc.ofJson json) = .ok plan) :
  NamesOp json ∨ NumbersOp json
  := by
  cases json with
  | object members =>
    cases room with
    | zero => cases h
    | succ room =>
      obtain ⟨op, hop, -⟩ := Except.bind_eq_ok_iff.mp h
      obtain ⟨-, hnone⟩ | ⟨-, json, hjson, hread⟩ := opMembers_of_findOp hop
      · cases hnone
      · rcases Op.eq_of_readAny hread with rfl | ⟨number, rfl⟩
        · exact Or.inl ⟨op, hjson⟩
        · exact Or.inr ⟨number, hjson⟩
  | array items =>
    cases room with
    | zero => cases h
    | succ room =>
      cases items with
      | nil => cases h
      | cons item items =>
        obtain ⟨op, hop, -⟩ := Except.bind_eq_ok_iff.mp h
        rcases Op.eq_of_readAny hop with rfl | ⟨number, rfl⟩
        · exact Or.inl ⟨op, rfl⟩
        · exact Or.inr ⟨number, rfl⟩
  | _ =>
    cases room <;> exact absurd h (Doc.refuse_ne_ok _ _ _)

theorem not_numbersOp_of_namesOp {json : Json} (h : NamesOp json) :
  ¬NumbersOp json
  := by
  cases json with
  | object members =>
    obtain ⟨op, hop⟩ := h
    rintro ⟨number, hnumber⟩
    rw [hop] at hnumber
    cases hnumber
  | array items =>
    obtain ⟨op, hop⟩ := h
    rintro ⟨number, hnumber⟩
    rw [hop] at hnumber
    cases hnumber
  | _ => exact id

end Plan

end StructuredQuery
