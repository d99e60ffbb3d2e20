import StructuredQuery.Proofs.Plan.Nested
import StructuredQuery.Proofs.Query.Reader
import StructuredQuery.Proofs.Record.Lookup

/-!
# The grammar of plans

`Op.rules` is the grammar of plans: for each operation the keys of its arguments, and for each
key what may stand there.  A text is read as a plan if and only if every tree in it that stands
in the place of a plan conforms to the grammar.
-/

namespace StructuredQuery

namespace Plan

/-! ### The grammar -/

/-- The kinds of arguments. -/
inductive Kind where
  /-- Any value, null among them. -/
  | any
  /-- A string. -/
  | text
  /-- A number. -/
  | number
  /-- A string that names an operator. -/
  | operator
  /-- A string or a list of strings. -/
  | words
  /-- A plan. -/
  | plan
  /-- A list of plans. -/
  | plans

/-- What may stand under the key of an argument. -/
inductive Rule where
  /-- An argument of the kind. -/
  | required (kind : Kind)
  /-- An argument of the kind, null, or nothing. -/
  | optional (kind : Kind)
  /-- An argument of the kind, or nothing. -/
  | free (kind : Kind)

/-- The keys of the arguments of an operation, and the rules for them. -/
def Op.rules : Op → List (String × Rule)
  | query | and | or => [("queries", .free .plans)]
  | qtext => [("text", .required .words)]
  | term => [("text", .required .any), ("weight", .optional .number)]
  | not | propertiesFragment | documentFragment | locksFragment => [("query", .required .plan)]
  | boost => [("matching", .optional .plan), ("boosting", .required .plan)]
  | directory | collection | document => [("uri", .free .any)]
  | range =>
    [("name", .required .text), ("operator", .optional .operator), ("values", .required .any),
      ("options", .free .any)]
  | value =>
    [("name", .required .text), ("values", .required .any), ("weight", .optional .number)]
  | word =>
    [("name", .required .text), ("text", .required .any), ("weight", .optional .number)]
  | collectionConstraint => [("name", .required .text), ("uri", .free .any)]
  | custom => [("name", .required .text), ("text", .required .any)]
  | customGeospatial =>
    [("name", .required .text), ("annotation", .optional .any), ("shapes", .free .any)]
  | geospatial => [("name", .required .text), ("shapes", .free .any)]
  | constraint =>
    [("kind", .optional .text), ("name", .required .text), ("values", .free .any)]
  | operatorState => [("operator", .required .text), ("state", .required .text)]

/-- The argument is of the kind, as far as it is not about the plans in it. -/
def Kind.Allows (argument : Json) : Kind → Prop
  | any | plan => True
  | text => ∃ text, argument = .string text
  | number => ∃ number, argument = .number number
  | operator => ∃ text, argument = .string text ∧ (RangeOperator.ofText? text).isSome
  | words => (∃ text, argument = .string text)
    ∨ ∃ texts : List String, argument = .array (texts.map .string)
  | plans => ∃ items, argument = .array items

/-- The inner tree stands in the argument in the place of a plan. -/
def Kind.Holds (argument inner : Json) : Kind → Prop
  | plan => argument = inner
  | plans => ∃ items, argument = .array items ∧ inner ∈ items
  | _ => False

/-- The rule is kept by what is found, if this condition says what an argument of a kind is. -/
def Rule.Allows (allows : Json → Kind → Prop) (found : Option Json) : Rule → Prop
  | required kind => ∃ argument, found = some argument ∧ allows argument kind
  | optional kind =>
    found = none ∨ found = some .null ∨ ∃ argument, found = some argument ∧ allows argument kind
  | free kind => ∀ argument, found = some argument → allows argument kind

/-- The inner tree stands in the argument in the place of a plan. -/
def Rule.Holds (argument inner : Json) : Rule → Prop
  | required kind | free kind => kind.Holds argument inner
  | optional kind => argument ≠ .null ∧ kind.Holds argument inner

/-- The tree is an object with a string for the name of its operation. -/
def Labelled (json : Json) : Prop :=
  ∃ members label, json = .object members ∧ (opKey, .string label) ∈ members

/-- The tree is an object that names an operation, and whose other members keep the rules of the
operation.  Members under other keys may be anything. -/
def Conforms (json : Json) : Prop :=
  ∃ (members : List (String × Json)) (op : Op), json = .object members
    ∧ (opKey, .string op.label) ∈ members
    ∧ ∀ entry ∈ op.rules, entry.2.Allows Kind.Allows (members.lookup entry.1)

/-- The inner tree stands in the outer one under a key where its operation has a plan. -/
def Position (outer inner : Json) : Prop :=
  ∃ (members : List (String × Json)) (op : Op), outer = .object members
    ∧ (opKey, .string op.label) ∈ members
    ∧ ∃ entry ∈ op.rules, ∃ argument, (entry.1, argument) ∈ members
      ∧ entry.2.Holds argument inner

/-! ### Kinds and their readers -/

/-- The argument is of the kind, and the plans in it are read. -/
def Kind.Reads (inner : Inner) (argument : Json) : Kind → Prop
  | plan => ∃ plan, inner.plan (Doc.ofJson argument) = .ok plan
  | plans => ∃ plans, inner.plans (Doc.ofJson argument) = .ok plans
  | kind => kind.Allows argument

section

variable {α : Type} {types : List Type} {inner : Inner} {read : Doc → Read α} {kind : Kind}

/-- The reader takes the arguments of the kind. -/
def Kind.Governs (inner : Inner) (read : Doc → Read α) (kind : Kind) : Prop :=
  ∀ json : Json, json.depth ≤ fullRoom →
    ((∃ value, read (Doc.ofJson json) = .ok value) ↔ kind.Reads inner json)

theorem Kind.governs_any :
  any.Governs inner readValue
  := by
  intro json hdepth
  refine ⟨fun _ => trivial, fun _ => ?_⟩
  use .ofJson json
  rw [readValue, Doc.readValue, Doc.readTree_eq_ok_iff.mpr ⟨rfl, hdepth⟩]
  rfl

theorem Kind.governs_text :
  text.Governs inner Doc.readString
  := by
  intro json _
  constructor
  · rintro ⟨value, hvalue⟩
    cases json with
    | string text => exact ⟨text, rfl⟩
    | _ => exact absurd hvalue (Doc.refuse_ne_ok _ _ _)
  · rintro ⟨text, rfl⟩
    exact ⟨text, rfl⟩

theorem Kind.governs_number :
  number.Governs inner Doc.readDouble
  := by
  intro json _
  constructor
  · rintro ⟨value, hvalue⟩
    cases json with
    | number number => exact ⟨number, rfl⟩
    | _ => exact absurd hvalue (Doc.refuse_ne_ok _ _ _)
  · rintro ⟨number, rfl⟩
    exact ⟨number.toDouble, rfl⟩

theorem Kind.governs_operator :
  operator.Governs inner RangeOperator.read
  := by
  intro json hdepth
  constructor
  · rintro ⟨value, hread⟩
    obtain ⟨text, htext, hvalue⟩ := Except.bind_eq_ok_iff.mp hread
    have hstring : Kind.text.Governs inner Doc.readString := governs_text
    obtain ⟨_, rfl⟩ := (hstring json hdepth).mp ⟨text, htext⟩
    cases htext
    use text, rfl
    cases hfound : RangeOperator.ofText? text with
    | some operator => rfl
    | none =>
      rw [hfound] at hvalue
      cases hvalue
  · rintro ⟨text, rfl, hsome⟩
    obtain ⟨operator, hoperator⟩ := Option.isSome_iff_exists.mp hsome
    use operator
    simp only [RangeOperator.read, Doc.ofJson, Doc.readString, Read.ofFlaw, bind, Except.bind,
      hoperator]

theorem Kind.governs_words :
  words.Governs inner (Words.read fullRoom)
  := by
  intro json hdepth
  have hread (words : Words) (hwords : json = words.encode) :
      ∃ value, Words.read fullRoom (Doc.ofJson json) = .ok value := by
    subst hwords
    exact ⟨words, (Words.reads fullRoom words).ok ⟨hdepth, trivial⟩⟩
  constructor
  · rintro ⟨words, hwords⟩
    obtain ⟨tree, htree, hwords⟩ := Except.bind_eq_ok_iff.mp hwords
    obtain ⟨hdoc, -⟩ := Doc.readTree_eq_ok_iff.mp htree
    obtain rfl := Doc.ofJson_injective hdoc
    cases hfound : Words.ofTree? json with
    | none =>
      rw [hfound] at hwords
      cases hwords
    | some found =>
      rw [← Words.encode_of_ofTree? hfound]
      cases found with
      | one text => exact Or.inl ⟨text, rfl⟩
      | many texts => exact Or.inr ⟨texts, rfl⟩
  · rintro (⟨text, htext⟩ | ⟨texts, htexts⟩)
    · exact hread (.one text) htext
    · exact hread (.many texts) htexts

theorem Kind.governs_plan :
  plan.Governs inner inner.plan
  := fun _ _ => Iff.rfl

theorem Kind.governs_plans :
  plans.Governs inner inner.plans
  := fun _ _ => Iff.rfl

end

/-! ### Rules and their fields -/

section

variable {α : Type} {inner : Inner} {read : Doc → Read α} {kind : Kind}

/-- The field takes what the rule allows. -/
def Rule.Governs (inner : Inner) (absent : Absent α) (read : Doc → Read α) (rule : Rule) : Prop :=
  ∀ found : Option Json, (∀ json, found = some json → json.depth ≤ fullRoom) →
    ((∃ value, absent.Reads read value found) ↔ rule.Allows (Kind.Reads inner) found)

theorem Kind.Governs.required (h : kind.Governs inner read) :
  (Rule.required kind).Governs inner .missing read
  := by
  intro found hdepth
  rw [Rule.Allows]
  cases found with
  | none => exact ⟨fun ⟨_, hvalue⟩ => hvalue.elim, nofun⟩
  | some json =>
    simp only [Absent.Reads, h json (hdepth json rfl), Option.some.injEq, exists_eq_left']

theorem Kind.Governs.optional (h : kind.Governs inner read) :
  (Rule.optional kind).Governs inner (.optional none) (Doc.readOption read)
  := by
  intro found hdepth
  rw [Rule.Allows]
  cases found with
  | none => exact ⟨fun _ => Or.inl rfl, fun _ => ⟨none, rfl⟩⟩
  | some json =>
    have hnull : Doc.ofJson json = .null ↔ json = .null :=
      Doc.ofJson_injective.eq_iff (b := .null)
    simp only [Absent.Reads, Doc.exists_readOption_iff, hnull, h json (hdepth json rfl),
      Option.some.injEq, exists_eq_left', reduceCtorEq, false_or]

theorem Kind.Governs.free (h : kind.Governs inner read) (value : α) :
  (Rule.free kind).Governs inner (.default value) read
  := by
  intro found hdepth
  rw [Rule.Allows]
  cases found with
  | none => exact ⟨fun _ => nofun, fun _ => ⟨value, rfl⟩⟩
  | some json => simp only [Absent.Reads, h json (hdepth json rfl), Option.some.injEq, forall_eq']

end

section

variable {types : List Type} {fields : Fields types} {inner : Inner}
  {rules : List (String × Rule)}

/-- The fields of a record stand under the keys of the rules, and take what those allow. -/
inductive Governed (inner : Inner) :
    {types : List Type} → Fields types → List (String × Rule) → Prop where
  | done : Governed inner .done []
  | field {α : Type} {types : List Type} {key : String} {read : Doc → Read α}
      {absent : Absent α} {rest : Fields types} {rule : Rule} {rules : List (String × Rule)}
      (h : rule.Governs inner absent read) (hrest : Governed inner rest rules) :
      Governed inner (.field key read absent rest) ((key, rule) :: rules)

theorem Governed.keys_eq (h : Governed inner fields rules) :
  fields.keys = rules.map Prod.fst
  := by
  induction h with
  | done => rfl
  | field _ _ ih => rw [Fields.keys, ih, List.map_cons]

/-- The values of a record are found where the rules are kept. -/
theorem Governed.exists_finds_iff (h : Governed inner fields rules) {found : String → Option Json}
    (hdepth : ∀ key json, found key = some json → json.depth ≤ fullRoom) :
  (∃ values, fields.Finds found values)
    ↔ ∀ entry ∈ rules, entry.2.Allows (Kind.Reads inner) (found entry.1)
  := by
  induction h with
  | done => exact ⟨fun _ => by simp, fun _ => ⟨(), trivial⟩⟩
  | @field _ _ key _ _ _ _ _ hrule _ ih =>
    rw [List.forall_mem_cons, ← hrule _ (hdepth key), ← ih]
    constructor
    · rintro ⟨⟨value, values⟩, hvalue, hvalues⟩
      exact ⟨⟨value, hvalue⟩, values, hvalues⟩
    · rintro ⟨⟨value, hvalue⟩, values, hvalues⟩
      exact ⟨(value, values), hvalue, hvalues⟩

/-- The arguments of an operation are read where its rules are kept. -/
theorem exists_readArguments_iff {members : List (String × Json)}
    (hmembers : (members.map Prod.fst).Nodup) (hdepth : Json.depthMembers members ≤ fullRoom)
    (inner : Inner) (op : Op) :
  (∃ plan, readArguments inner op (.members (Doc.ofMembers members) none) = .ok plan)
    ↔ ∀ entry ∈ op.rules, entry.2.Allows (Kind.Reads inner) (members.lookup entry.1)
  := by
  have hfound (key : String) (json : Json) (h : members.lookup key = some json) :
      json.depth ≤ fullRoom :=
    Json.depthMembers_le_iff.mp hdepth _ (Json.mem_of_lookup h)
  have hrecord {types : List Type} {fields : Fields types} (build : Tuple types → Plan)
      (h : Governed inner fields op.rules) :
      (∃ plan, build <$> Arguments.read op fields (.members (Doc.ofMembers members) none)
          = .ok plan)
        ↔ ∀ entry ∈ op.rules, entry.2.Allows (Kind.Reads inner) (members.lookup entry.1) := by
    have hkeys : fields.keys.Nodup := by
      rw [h.keys_eq]
      cases op <;> decide
    rw [← h.exists_finds_iff hfound]
    simp only [← Fields.ofMembers_eq_ok_iff hmembers hkeys, Except.map_eq_ok_iff]
    constructor
    · rintro ⟨plan, values, hvalues, -⟩
      exact ⟨values, hvalues⟩
    · rintro ⟨values, hvalues⟩
      exact ⟨build values, values, hvalues, rfl⟩
  cases op with
  | query | and | or => exact hrecord _ (.field (Kind.governs_plans.free []) .done)
  | qtext => exact hrecord _ (.field Kind.governs_words.required .done)
  | term =>
    exact hrecord _ (.field Kind.governs_any.required (.field Kind.governs_number.optional .done))
  | not | propertiesFragment | documentFragment | locksFragment =>
    exact hrecord _ (.field Kind.governs_plan.required .done)
  | boost =>
    exact hrecord _ (.field Kind.governs_plan.optional (.field Kind.governs_plan.required .done))
  | directory | collection | document =>
    exact hrecord _ (.field (Kind.governs_any.free .null) .done)
  | range =>
    exact hrecord _ (.field Kind.governs_text.required (.field Kind.governs_operator.optional
      (.field Kind.governs_any.required (.field (Kind.governs_any.free .null) .done))))
  | value | word =>
    exact hrecord _ (.field Kind.governs_text.required (.field Kind.governs_any.required
      (.field Kind.governs_number.optional .done)))
  | collectionConstraint | geospatial =>
    exact hrecord _ (.field Kind.governs_text.required
      (.field (Kind.governs_any.free .null) .done))
  | custom =>
    exact hrecord _ (.field Kind.governs_text.required (.field Kind.governs_any.required .done))
  | customGeospatial =>
    exact hrecord _ (.field Kind.governs_text.required (.field Kind.governs_any.optional
      (.field (Kind.governs_any.free .null) .done)))
  | constraint =>
    exact hrecord _ (.field Kind.governs_text.optional (.field Kind.governs_text.required
      (.field (Kind.governs_any.free .null) .done)))
  | operatorState =>
    exact hrecord _ (.field Kind.governs_text.required (.field Kind.governs_text.required .done))

end

/-! ### Plans in arguments -/

theorem Kind.Holds.depth_le {kind : Kind} {argument inner : Json} (h : kind.Holds argument inner) :
  inner.depth ≤ argument.depth
  := by
  cases kind with
  | plan =>
    cases h
    exact Nat.le_refl _
  | plans =>
    obtain ⟨items, rfl, hinner⟩ := h
    apply Nat.le_succ_of_le (Json.depthItems_le_iff.mp (Nat.le_refl _) inner hinner)
  | _ => cases h

/-- A list of plans is read if each of its items holds one. -/
theorem exists_readNodes_iff {items : List Json} {room : ℕ} (hdepth : Json.depthItems items ≤ room)
    (hroom : room < fullRoom) :
  (∃ plans, readNodes (room + 1) (Doc.ofJson (.array items)) = .ok plans)
    ↔ ∀ inner ∈ items, ∃ plan, ofTree inner = .ok plan
  := by
  have hitem (inner : Json) (hinner : inner ∈ items) :
      readNode room (Doc.ofJson inner) = ofTree inner :=
    readNode_eq_ofTree (Json.depthItems_le_iff.mp hdepth inner hinner) (Nat.le_of_lt hroom)
  have hread : readNodes (room + 1) (Doc.ofJson (.array items))
      = (items.map Doc.ofJson).mapM (readNode room) := by
    rw [← Doc.ofItems_eq_map]
    exact bind_pure _
  rw [hread]
  constructor
  · rintro ⟨plans, hplans⟩ inner hinner
    rw [← hitem inner hinner]
    exact Except.exists_of_mapM hplans _ (List.mem_map_of_mem hinner)
  · intro h
    apply Except.exists_mapM
    rw [List.forall_mem_map]
    intro inner hinner
    rw [hitem inner hinner]
    exact h inner hinner

/-- An argument is read if it is of its kind and each tree in the place of a plan holds one. -/
theorem Kind.reads_iff {kind : Kind} {argument : Json} {room : ℕ} (hdepth : argument.depth ≤ room)
    (hroom : room ≤ fullRoom) :
  kind.Reads ⟨readNode room, readNodes room⟩ argument
    ↔ kind.Allows argument
      ∧ ∀ inner, kind.Holds argument inner → ∃ plan, ofTree inner = .ok plan
  := by
  cases kind with
  | plan =>
    simp only [Reads, Allows, Holds, true_and, forall_eq', readNode_eq_ofTree hdepth hroom]
  | plans =>
    constructor
    · intro h
      obtain ⟨plans, hplans⟩ := h
      obtain ⟨room, rfl, docs, hdocs, -⟩ := exists_of_readNodes hplans
      cases argument with
      | array items =>
        use ⟨items, rfl⟩
        rintro inner ⟨_, ⟨⟩, hinner⟩
        exact (exists_readNodes_iff (Nat.le_of_succ_le_succ hdepth) hroom).mp ⟨plans, hplans⟩
          inner hinner
      | _ => cases hdocs
    · rintro ⟨⟨items, rfl⟩, hinner⟩
      cases room with
      | zero => cases hdepth
      | succ room =>
        apply (exists_readNodes_iff (Nat.le_of_succ_le_succ hdepth) hroom).mpr
        intro inner hmem
        exact hinner inner ⟨items, rfl, hmem⟩
  | _ => simp only [Reads, Holds, IsEmpty.forall_iff, implies_true, and_true]

/-- What is found is read if it keeps its rule and each tree in the place of a plan holds one. -/
theorem Rule.allows_reads_iff (rule : Rule) {found : Option Json} {room : ℕ}
    (hdepth : ∀ argument, found = some argument → argument.depth ≤ room)
    (hroom : room ≤ fullRoom) :
  rule.Allows (Kind.Reads ⟨readNode room, readNodes room⟩) found
    ↔ rule.Allows Kind.Allows found
      ∧ ∀ argument, found = some argument →
        ∀ inner, rule.Holds argument inner → ∃ plan, ofTree inner = .ok plan
  := by
  cases found with
  | none => cases rule <;> simp [Allows]
  | some argument =>
    have hkind (kind : Kind) := kind.reads_iff (hdepth argument rfl) hroom
    cases rule with
    | required kind | free kind => simp [Allows, Holds, hkind]
    | optional kind =>
      by_cases hnull : argument = .null
      · simp [Allows, Holds, hnull]
      · simp [Allows, Holds, hkind, hnull]

/-! ### Plans in trees -/

section

variable {members : List (String × Json)}

theorem findOp_of_notMem (op : Op) (h : ∀ member ∈ members, member.1 ≠ opKey) :
  findOp (some op) (Doc.ofMembers members) = .ok op
  := by
  induction members with
  | nil => rfl
  | cons member members ih =>
    obtain ⟨hkey, hrest⟩ := List.forall_mem_cons.mp h
    rw [Doc.ofMembers, findOp_of_ne _ hkey]
    apply ih hrest

/-- The operation is what stands under its key. -/
theorem findOp_eq_readAny (hmembers : (members.map Prod.fst).Nodup) {json : Json}
    (hjson : (opKey, json) ∈ members) :
  findOp none (Doc.ofMembers members) = Op.readAny (Doc.ofJson json)
  := by
  induction members with
  | nil => cases hjson
  | cons member members ih =>
    rcases List.mem_cons.mp hjson with rfl | hjson
    · have hothers : ∀ member ∈ members, member.1 ≠ opKey :=
        fun member hmember => Json.ne_of_nodup hmembers hmember
      simp only [Doc.ofMembers, findOp_op, Option.isSome_none, Bool.false_eq_true, if_false,
        findOp_of_notMem _ hothers]
      exact bind_pure _
    · have hne : member.1 ≠ opKey := (Json.ne_of_nodup hmembers hjson).symm
      rw [Doc.ofMembers, findOp_of_ne _ hne]
      apply ih (List.nodup_cons.mp hmembers).2 hjson

theorem findOp_eq_ok_iff (hmembers : (members.map Prod.fst).Nodup) {label : String}
    (hlabel : (opKey, .string label) ∈ members) {op : Op} :
  findOp none (Doc.ofMembers members) = .ok op ↔ label = op.label
  := by
  rw [findOp_eq_readAny hmembers hlabel]
  exact Op.ofLabel_eq_ok_iff

/-- An object without repeated keys names the operation that stands under its key. -/
theorem namesOp_of_mem (hmembers : (members.map Prod.fst).Nodup) {op : Op}
    (hop : (opKey, .string op.label) ∈ members) :
  NamesOp (.object members)
  := by
  have hfound := (findOp_eq_ok_iff hmembers hop).mpr rfl
  obtain ⟨-, ⟨⟩⟩ | ⟨-, json, hjson, -⟩ := opMembers_of_findOp hfound
  use op
  have hmem : Json.string op.label ∈ opMembers members := by
    rw [opMembers, List.mem_map]
    exact ⟨_, List.mem_filter.mpr ⟨hop, decide_eq_true rfl⟩, rfl⟩
  rw [hjson, List.mem_singleton] at hmem
  rw [hjson, hmem]

/-- A tree that conforms to the grammar names its operation. -/
theorem Conforms.namesOp {json : Json} (h : Conforms json) (hkeys : json.Unrepeated) :
  NamesOp json
  := by
  obtain ⟨members, op, rfl, hop, -⟩ := h
  apply namesOp_of_mem hkeys.1 hop

theorem op_eq_of_mem (hmembers : (members.map Prod.fst).Nodup) {op other : Op}
    (hop : (opKey, .string op.label) ∈ members) (hother : (opKey, .string other.label) ∈ members) :
  op = other
  := by
  have hfound := (findOp_eq_ok_iff hmembers hop).mpr rfl
  rw [(findOp_eq_ok_iff hmembers hother).mpr rfl] at hfound
  exact (Except.ok.inj hfound).symm

theorem conforms_iff (op : Op) (hmembers : (members.map Prod.fst).Nodup)
    (hop : (opKey, .string op.label) ∈ members) :
  Conforms (.object members)
    ↔ ∀ entry ∈ op.rules, entry.2.Allows Kind.Allows (members.lookup entry.1)
  := by
  constructor
  · rintro ⟨_, other, ⟨⟩, hother, hrules⟩
    rw [op_eq_of_mem hmembers hop hother]
    exact hrules
  · intro hrules
    exact ⟨members, op, rfl, hop, hrules⟩

theorem position_iff (op : Op) (hmembers : (members.map Prod.fst).Nodup)
    (hop : (opKey, .string op.label) ∈ members) {inner : Json} :
  Position (.object members) inner
    ↔ ∃ entry ∈ op.rules, ∃ argument, members.lookup entry.1 = some argument
      ∧ entry.2.Holds argument inner
  := by
  simp only [Json.lookup_eq_some_iff hmembers]
  constructor
  · rintro ⟨_, other, ⟨⟩, hother, hentry⟩
    rw [op_eq_of_mem hmembers hop hother]
    exact hentry
  · intro hentry
    exact ⟨members, op, rfl, hop, hentry⟩

end

theorem Rule.Holds.exists_kind {rule : Rule} {argument inner : Json}
    (h : rule.Holds argument inner) :
  ∃ kind : Kind, kind.Holds argument inner
  := by
  cases rule with
  | required kind | free kind => exact ⟨kind, h⟩
  | optional kind => exact ⟨kind, h.2⟩

theorem Position.depth_lt {outer inner : Json} (h : Position outer inner) :
  inner.depth < outer.depth
  := by
  obtain ⟨members, op, rfl, -, entry, -, argument, hmember, hholds⟩ := h
  obtain ⟨kind, hkind⟩ := hholds.exists_kind
  apply Nat.lt_succ_of_le
  exact hkind.depth_le.trans (Json.depthMembers_le_iff.mp (Nat.le_refl _) _ hmember)

theorem Position.unrepeated {outer inner : Json} (h : Position outer inner)
    (houter : outer.Unrepeated) :
  inner.Unrepeated
  := by
  obtain ⟨members, op, rfl, -, entry, -, argument, hmember, hholds⟩ := h
  have hargument : argument.Unrepeated := Json.unrepeatedMembers_iff.mp houter.2 _ hmember
  obtain ⟨kind, hkind⟩ := hholds.exists_kind
  cases kind with
  | plan =>
    cases hkind
    exact hargument
  | plans =>
    obtain ⟨items, rfl, hinner⟩ := hkind
    exact Json.unrepeatedItems_iff.mp hargument inner hinner
  | _ => cases hkind

theorem forall_position_iff {p : Json → Prop} {outer : Json} :
  (∀ inner, Relation.ReflTransGen Position outer inner → p inner)
    ↔ p outer ∧ ∀ next, Position outer next →
      ∀ inner, Relation.ReflTransGen Position next inner → p inner
  := by
  constructor
  · intro h
    exact ⟨h outer .refl, fun next hnext inner hinner => h inner (.head hnext hinner)⟩
  · rintro ⟨houter, hnext⟩ inner hinner
    rcases hinner.cases_head with rfl | ⟨next, hposition, hrest⟩
    · exact houter
    · exact hnext next hposition inner hrest

/-- A tree that has a string for the name of its operation holds a plan if it conforms to the
grammar and each tree in the place of a plan holds one. -/
theorem exists_ofTree_iff {json : Json} (hlabelled : Labelled json) (hkeys : json.Unrepeated)
    (hdepth : json.depth ≤ fullRoom) :
  (∃ plan, ofTree json = .ok plan)
    ↔ Conforms json ∧ ∀ inner, Position json inner → ∃ plan, ofTree inner = .ok plan
  := by
  obtain ⟨members, label, rfl, hlabel⟩ := hlabelled
  obtain ⟨hmembers, -⟩ := hkeys
  have hroom : Json.depthMembers members ≤ fullRoom := Nat.le_of_succ_le hdepth
  have hlookup (key : String) (argument : Json) (h : members.lookup key = some argument) :
      argument.depth ≤ Json.depthMembers members :=
    Json.depthMembers_le_iff.mp (Nat.le_refl _) _ (Json.mem_of_lookup h)
  have hrule (entry : String × Rule) :=
    entry.2.allows_reads_iff (hlookup entry.1) hroom
  have hread (op : Op) := exists_readArguments_iff hmembers hroom
    ⟨readNode (Json.depthMembers members), readNodes (Json.depthMembers members)⟩ op
  rw [← readNode_eq_ofTree (Nat.le_refl _) hdepth]
  constructor
  · rintro ⟨plan, hplan⟩
    obtain ⟨op, hop, harguments⟩ := Except.bind_eq_ok_iff.mp hplan
    obtain rfl := (findOp_eq_ok_iff hmembers hlabel).mp hop
    have hrules := (hread op).mp ⟨plan, harguments⟩
    rw [conforms_iff op hmembers hlabel]
    simp only [position_iff op hmembers hlabel]
    constructor
    · intro entry hentry
      exact ((hrule entry).mp (hrules entry hentry)).1
    · rintro inner ⟨entry, hentry, argument, hargument, hholds⟩
      exact ((hrule entry).mp (hrules entry hentry)).2 argument hargument inner hholds
  · rintro ⟨⟨_, op, ⟨⟩, hop, hrules⟩, hinner⟩
    simp only [position_iff op hmembers hop] at hinner
    have hplans (entry : String × Rule) (hentry : entry ∈ op.rules) (argument : Json)
        (hargument : members.lookup entry.1 = some argument) (inner : Json)
        (hholds : entry.2.Holds argument inner) : ∃ plan, ofTree inner = .ok plan :=
      hinner inner ⟨entry, hentry, argument, hargument, hholds⟩
    obtain ⟨plan, hplan⟩ := (hread op).mpr fun entry hentry =>
      (hrule entry).mpr ⟨hrules entry hentry, hplans entry hentry⟩
    use plan
    exact Except.bind_eq_ok_iff.mpr ⟨op, (findOp_eq_ok_iff hmembers hop).mpr rfl, hplan⟩

/-- A tree without repeated keys whose plans are objects with a string for the name of the
operation holds a plan if they all conform to the grammar. -/
theorem exists_ofTree_iff_conforms {json : Json} (hkeys : json.Unrepeated)
    (hdepth : json.depth ≤ fullRoom)
    (hlabelled : ∀ inner, Relation.ReflTransGen Position json inner → Labelled inner) :
  (∃ plan, ofTree json = .ok plan)
    ↔ ∀ inner, Relation.ReflTransGen Position json inner → Conforms inner
  := by
  induction hmeasure : json.depth using Nat.strong_induction_on generalizing json with
  | _ n ih =>
    rw [forall_position_iff] at hlabelled
    rw [exists_ofTree_iff hlabelled.1 hkeys hdepth, forall_position_iff]
    apply and_congr_right
    intro _
    apply forall₂_congr
    intro inner hinner
    apply ih inner.depth (hmeasure ▸ hinner.depth_lt) (hinner.unrepeated hkeys)
      (hinner.depth_lt.le.trans hdepth) (hlabelled.2 inner hinner) rfl

/-- A text is read as a plan exactly if every tree in the place of a plan conforms to the grammar.
No key may come twice in an object of the text, and each tree in the place of a plan must be an
object with a string for the name of its operation. -/
theorem exists_ofText_iff_conforms {text : String} {json : Json} (h : Json.ofText text = .ok json)
    (hkeys : json.Unrepeated)
    (hlabelled : ∀ inner, Relation.ReflTransGen Position json inner → Labelled inner) :
  (∃ plan, ofText text = .ok plan)
    ↔ ∀ inner, Relation.ReflTransGen Position json inner → Conforms inner
  := by
  obtain ⟨hdoc, hdepth⟩ := Json.ofText_eq_ok_iff.mp h
  rw [← exists_ofTree_iff_conforms hkeys hdepth hlabelled]
  constructor
  · rintro ⟨plan, hplan⟩
    exact ⟨plan, ((ofText_eq_ok_iff hdoc).mp hplan).2.2⟩
  · rintro ⟨plan, hplan⟩
    have hconforms := ((exists_ofTree_iff (hlabelled json .refl) hkeys hdepth).mp ⟨plan, hplan⟩).1
    exact ⟨plan, (ofText_eq_ok_iff hdoc).mpr ⟨hdepth, hconforms.namesOp hkeys, hplan⟩⟩

/-- A tree that holds the query of the plans in an argument. -/
def queryTree (queries : Json) : Json :=
  .object [(opKey, .string Op.query.label), ("queries", queries)]

theorem nodup_pair {key : String} (h : opKey ≠ key) (op argument : Json) :
  ([(opKey, op), (key, argument)].map Prod.fst).Nodup
  := by
  simp [h]

theorem position_notTree_iff {json inner : Json} :
  Position (notTree json) inner ↔ json = inner
  := by
  rw [notTree, position_iff .not (nodup_pair (by decide) _ _) List.mem_cons_self]
  simp [Op.rules, Rule.Holds, Kind.Holds, opKey, List.lookup_cons]

theorem position_queryTree_iff {queries inner : Json} :
  Position (queryTree queries) inner ↔ ∃ items, queries = .array items ∧ inner ∈ items
  := by
  rw [queryTree, position_iff .query (nodup_pair (by decide) _ _) List.mem_cons_self]
  simp [Op.rules, Rule.Holds, Kind.Holds, opKey, List.lookup_cons]

theorem conforms_notTree (json : Json) :
  Conforms (notTree json)
  := by
  rw [notTree, conforms_iff .not (nodup_pair (by decide) _ _) List.mem_cons_self]
  simp [Op.rules, Rule.Allows, Kind.Allows, opKey, List.lookup_cons]

theorem conforms_queryTree_iff {queries : Json} :
  Conforms (queryTree queries) ↔ ∃ items, queries = .array items
  := by
  rw [queryTree, conforms_iff .query (nodup_pair (by decide) _ _) List.mem_cons_self]
  simp [Op.rules, Rule.Allows, Kind.Allows, opKey, List.lookup_cons]

/-- A list of queries may be empty but not null, inside a negation too. -/
theorem exists_ofText_not_query :
  (∃ plan, ofText (notTree (queryTree (.array []))).compact = .ok plan)
    ∧ ¬∃ plan, ofText (notTree (queryTree .null)).compact = .ok plan
  := by
  have hread (queries : Json) (hqueries : queries = .array [] ∨ queries = .null) :
      (∃ plan, ofText (notTree (queryTree queries)).compact = .ok plan)
        ↔ ∃ items, queries = .array items := by
    have hempty : ∀ inner, ¬Position (queryTree queries) inner := by
      intro inner hinner
      obtain ⟨items, rfl, hitem⟩ := position_queryTree_iff.mp hinner
      obtain ⟨⟨⟩⟩ | ⟨⟨⟩⟩ := hqueries
      cases hitem
    have hplaces {p : Json → Prop} :
        (∀ inner, Relation.ReflTransGen Position (notTree (queryTree queries)) inner → p inner)
          ↔ p (notTree (queryTree queries)) ∧ p (queryTree queries) := by
      rw [forall_position_iff]
      simp only [position_notTree_iff, forall_eq']
      rw [forall_position_iff]
      simp only [hempty, IsEmpty.forall_iff, implies_true, and_true]
    have hdepth : (notTree (queryTree queries)).depth ≤ fullRoom := by
      rcases hqueries with rfl | rfl <;> decide
    have hkeys : (notTree (queryTree queries)).Unrepeated := by
      rcases hqueries with rfl | rfl <;>
        simp [notTree, queryTree, opKey, Json.Unrepeated, Json.UnrepeatedMembers,
          Json.UnrepeatedItems]
    rw [exists_ofText_iff_conforms
      (Json.ofText_eq_ok_iff.mpr ⟨Document.ofText_compact _, hdepth⟩) hkeys
      (hplaces.mpr ⟨⟨_, _, rfl, List.mem_cons_self⟩, ⟨_, _, rfl, List.mem_cons_self⟩⟩)]
    rw [hplaces, conforms_queryTree_iff]
    exact and_iff_right (conforms_notTree _)
  constructor
  · exact (hread _ (Or.inl rfl)).mpr ⟨[], rfl⟩
  · intro h
    obtain ⟨items, hitems⟩ := (hread _ (Or.inr rfl)).mp h
    cases hitems

end Plan

end StructuredQuery
