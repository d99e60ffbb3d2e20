import StructuredQuery.Proofs.Plan.Grammar
import StructuredQuery.Proofs.Query.Identity
import StructuredQuery.Proofs.Record.Forms
import StructuredQuery.Proofs.Text.UpperCase

/-!
# Recognising range operators

A text names an operator exactly if it is the label of the operator with each of its letters in
either case: no other character, of whatever script, stands for a letter or for several of them.
The same texts name the same operators wherever an operator is read.
-/

namespace StructuredQuery

namespace RangeOperator

variable {text : String} {operator : RangeOperator}

/-! ### Texts -/

/-- The labels have none of the letters that other characters have in upper case. -/
theorem isOrdinary_of_mem_label :
  ∀ u ∈ operator.label.toList, Text.IsOrdinary u
  := by
  cases operator <;> simp [label, Text.IsOrdinary]

/-- The names that are read are the labels. -/
theorem ofLabel?_eq_some_iff {name : String} :
  ofLabel? name = some operator ↔ name = operator.label
  := by
  constructor
  · intro h
    unfold ofLabel? at h
    split at h <;> cases h <;> rfl
  · rintro rfl
    cases operator <;> rfl

theorem ofText?_eq_some_iff :
  ofText? text = some operator ↔ Text.upperCase text.toList = operator.label.toList
  := by
  rw [ofText?, ofLabel?_eq_some_iff, ← String.toList_inj, String.toList_ofList]

theorem ofText_eq_ok_iff_ofText? :
  ofText text = .ok operator ↔ ofText? text = some operator
  := by
  rw [ofText]
  split
  · next found hfound => simp [hfound]
  · next hnone => simp [hnone]

/-- A text names an operator if it is the label, with each letter in either case. -/
theorem ofText_eq_ok_iff :
  ofText text = .ok operator
    ↔ Text.lowerLetters text.toList = Text.lowerLetters operator.label.toList
  := by
  rw [ofText_eq_ok_iff_ofText?, ofText?_eq_some_iff,
    Text.upperCase_eq_iff isOrdinary_of_mem_label]

/-- Texts of the same letters in either case are of one length. -/
theorem length_eq_of_lowerLetters_eq {text other : String}
    (h : Text.lowerLetters text.toList = Text.lowerLetters other.toList) :
  text.length = other.length
  := by
  have hlength := congrArg List.length h
  rwa [Text.lowerLetters, Text.lowerLetters, List.length_map, List.length_map,
    String.length_toList, String.length_toList] at hlength

theorem ofText_eq_error (h : ∀ operator, ofText text ≠ .ok operator) :
  ofText text = .error (.unknownRangeOperator text)
  := by
  rw [ofText]
  cases hfound : ofText? text with
  | none => rfl
  | some operator => exact absurd (ofText_eq_ok_iff_ofText?.mpr hfound) (h operator)

/-! ### Reading -/

/-- What is read depends on whether a text names an operator and which one, and on nothing else. -/
def Decides {α : Type} (text : String) (build : RangeOperator → α) (result : Read α) : Prop :=
  ∀ value, result = .ok value ↔ ∃ operator, ofText text = .ok operator ∧ build operator = value

theorem Decides.map {α β : Type} {build : RangeOperator → α} {result : Read α}
    (h : Decides text build result) (f : α → β) :
  Decides text (f ∘ build) (f <$> result)
  := by
  intro value
  simp only [Except.map_eq_ok_iff, h _, exists_exists_and_eq_and, Function.comp_apply]

/-- An operator is read from a string that names it. -/
theorem read_string_eq_ok_iff :
  read (Doc.ofJson (.string text)) = .ok operator ↔ ofText text = .ok operator
  := by
  rw [ofText_eq_ok_iff_ofText?]
  simp only [read, Doc.ofJson, Doc.readString, Read.ofFlaw, bind, Except.bind]
  split
  · next found hfound => simp [hfound]
  · next hnone => simp [hnone]

theorem decides_read :
  Decides text id (read (Doc.ofJson (.string text)))
  := by
  intro operator
  simp only [read_string_eq_ok_iff, id_eq, exists_eq_right]

/-- A record is read exactly if its operator is, where that holds of what is found in it. -/
theorem decides_fields {types : List Type} {fields : Fields types}
    {found : List (String × Option Json)} {build : RangeOperator → Tuple types}
    (hkeys : fields.keys.Nodup) (hplaces : fields.Places found) {json : Json}
    (hjson : json.IsRecord found) (source : Source) (name : String) {room : ℕ} (hroom : 0 < room)
    (hfinds : ∀ under : String → Option Json, (∀ entry ∈ found, under entry.1 = entry.2) →
      ∀ values, fields.Finds under values
        ↔ ∃ operator, ofText text = .ok operator ∧ build operator = values) :
  Decides text build (fields.read source name room (Doc.ofJson json))
  := by
  obtain ⟨under, hunder, hread⟩ :=
    Fields.exists_read_eq_ok_iff hkeys hplaces hjson source name hroom
  intro values
  rw [hread, hfinds under hunder]

end RangeOperator

namespace Query

/-- The parameters of a range constraint, with the operator as a text. -/
def rangeParameters (name text : String) (items : List Json) (options : List String) :
    List (String × Option Json) :=
  [("constraint-name", some (.string name)), ("range-operator", some (.string text)),
    ("value", some (.array items)), ("range-option", some (encodeStrings options))]

/-- The fields of a range constraint. -/
def rangeFields (room : ℕ) : Fields [String, RangeOperator, List Value, List String] :=
  .required "constraint-name" Doc.readString <|
  .required "range-operator" RangeOperator.read <|
  .required "value" (Doc.readValues (room - 1)) <|
  .required "range-option" (Doc.readStrings (room - 1)) .done

theorem readParameters_rangeConstraint (inner : Inner) (room : ℕ) (doc : Doc) :
  readParameters inner room .rangeConstraint doc
    = (fun (name, operator, values, options, _) => .rangeConstraint name operator values options)
      <$> (rangeFields room).read .text "struct RangeConstraintQuery" room doc
  := rfl

theorem keys_rangeFields (room : ℕ) :
  (rangeFields room).keys = ["constraint-name", "range-operator", "value", "range-option"]
  := rfl

section

variable {name text : String} {items : List Json} {options : List String} {body : Json}

theorem places_rangeFields (room : ℕ) :
  (rangeFields room).Places (rangeParameters name text items options)
  := by
  use rfl
  simp only [rangeParameters, List.forall_mem_cons]
  exact ⟨rfl, rfl, rfl, rfl, by simp⟩

/-- The parameters are found exactly if the operator is recognised. -/
theorem finds_rangeFields_iff {under : String → Option Json}
    (hunder : ∀ entry ∈ rangeParameters name text items options, under entry.1 = entry.2)
    {room : ℕ} (hitems : (Json.array items).depth < room)
    (hoptions : (encodeStrings options).depth < room)
    {values : Tuple [String, RangeOperator, List Value, List String]} :
  (rangeFields room).Finds under values
    ↔ ∃ operator, RangeOperator.ofText text = .ok operator
      ∧ (name, operator, items.map Value.ofJson, options, ()) = values
  := by
  obtain ⟨own, operator, found, texts, ⟨⟩⟩ := values
  have hvalues : Doc.readValues (room - 1) (Doc.ofJson (.array items)) = .ok found
      ↔ found = items.map Value.ofJson := by
    rw [(Doc.reads_values_ofJson (room - 1) items).eq_ok_iff,
      and_iff_right ⟨Nat.le_sub_one_of_lt hitems, trivial⟩]
  have hstrings : Doc.readStrings (room - 1) (Doc.ofJson (encodeStrings options)) = .ok texts
      ↔ texts = options := by
    rw [(Doc.reads_strings (room - 1) options).eq_ok_iff,
      and_iff_right ⟨Nat.le_sub_one_of_lt hoptions, trivial⟩]
  simp only [rangeParameters, List.forall_mem_cons] at hunder
  obtain ⟨hname, hoperator, hvalue, hoption, -⟩ := hunder
  simp only [rangeFields, Fields.required, Fields.Finds, hname, hoperator, hvalue, hoption,
    Absent.reads_missing_some, Doc.readString_eq_ok_iff, Json.string.injEq, hvalues, hstrings,
    RangeOperator.read_string_eq_ok_iff, and_true]
  constructor
  · rintro ⟨rfl, hfound, rfl, rfl⟩
    exact ⟨operator, hfound, rfl⟩
  · rintro ⟨_, hfound, ⟨⟩⟩
    exact ⟨rfl, hfound, rfl, rfl⟩

/-- A range constraint is read wherever it stands exactly if its operator is recognised. -/
theorem decides_rangeConstraint (hbody : body.IsRecord (rangeParameters name text items options))
    {room : ℕ} (hroom : (Tag.rangeConstraint.wrap body).depth ≤ room) :
  RangeOperator.Decides text
    (fun operator => .rangeConstraint name operator (items.map Value.ofJson) options)
    (read room (Doc.ofJson (Tag.rangeConstraint.wrap body)))
  := by
  have hitems : (Json.array items).depth < body.depth :=
    hbody.depth_lt (show ("value", _) ∈ _ by simp [rangeParameters])
  have hoptions : (encodeStrings options).depth < body.depth :=
    hbody.depth_lt (show ("range-option", _) ∈ _ by simp [rangeParameters])
  have hwrap : (Tag.rangeConstraint.wrap body).depth = body.depth + 1 := by
    simp [Tag.wrap, Json.depth, Json.depthMembers]
  obtain ⟨room, rfl⟩ : ∃ inner, room = inner + 2 := ⟨room - 2, by omega⟩
  have hkeys : (rangeFields (room + 1)).keys.Nodup := by
    rw [keys_rangeFields]
    decide
  have hfields := RangeOperator.decides_fields hkeys (places_rangeFields _) hbody .text
    "struct RangeConstraintQuery" room.succ_pos fun under hunder values =>
      finds_rangeFields_iff hunder (show _ < room + 1 by omega) (show _ < room + 1 by omega)
  rw [read, Tag.wrap, readLabelled, Doc.readLabelled_eq (ofLabel?_label .rangeConstraint) body
    (by omega), readParameters_rangeConstraint]
  apply hfields.map

end

end Query

namespace Plan

/-- The arguments of a range, with the operator as a text. -/
def rangeArguments (name text : String) (values : Json) (options : Option Json) :
    List (String × Option Json) :=
  [("name", some (.string name)), ("operator", some (.string text)), ("values", some values),
    ("options", options)]

/-- The fields of a range. -/
def rangeFields : Fields [String, Option RangeOperator, Value, Value] :=
  .required "name" Doc.readString <|
  .optional "operator" RangeOperator.read <|
  .required "values" readValue <|
  .orElse "options" readValue .null .done

section

variable {name text : String} {values : Json} {options : Option Json} {tree : Json}

theorem places_rangeFields :
  rangeFields.Places (rangeArguments name text values options)
  := by
  cases options with
  | none =>
    refine ⟨⟨⟨_, rfl⟩, rfl⟩, ?_⟩
    simp only [rangeArguments, List.forall_mem_cons]
    exact ⟨rfl, rfl, rfl, rfl, by simp⟩
  | some options =>
    use rfl
    simp only [rangeArguments, List.forall_mem_cons]
    exact ⟨rfl, rfl, rfl, rfl, by simp⟩

/-- What is left of the tree of a plan without its operation holds the arguments. -/
theorem exists_readNode_eq {op : Op} {found : List (String × Option Json)}
    (h : tree.IsRecord ((opKey, some (.string op.label)) :: found)) (room : ℕ) :
  ∃ (rest : Json) (arguments : Arguments), rest.IsRecord found
    ∧ readNode (room + 1) (Doc.ofJson tree)
      = readArguments ⟨readNode room, readNodes room⟩ op arguments
    ∧ ∀ {types : List Type} (fields : Fields types), arguments.read op fields
      = fields.read .tree ("struct variant QueryPlan::" ++ op.title) 1 (Doc.ofJson rest)
  := by
  cases tree with
  | object members =>
    obtain ⟨hmembers, hfound⟩ := h
    obtain ⟨hop, hfound⟩ := List.forall_mem_cons.mp hfound
    have hfind := (findOp_eq_ok_iff hmembers (Json.mem_of_lookup hop)).mpr rfl
    refine ⟨.object members, .members (Doc.ofMembers members) none, ⟨hmembers, hfound⟩, ?_,
      fun fields => rfl⟩
    rw [Doc.ofJson, readNode, hfind]
    rfl
  | array items =>
    obtain rfl := h
    refine ⟨.array (found.filterMap Prod.snd), .items (Doc.ofItems (found.filterMap Prod.snd)) none,
      rfl, ?_, fun fields => rfl⟩
    have hread : Op.readAny (Doc.ofJson (.string op.label)) = .ok op := Op.ofLabel_eq_ok_iff.mpr rfl
    show readNode _ (.array (Doc.ofJson (.string op.label) :: Doc.ofItems _) none) = _
    rw [readNode, hread]
    rfl
  | _ => cases h

theorem readArguments_range (inner : Inner) (arguments : Arguments) :
  readArguments inner .range arguments
    = (fun (name, operator, values, options, _) => .range name operator values options)
      <$> arguments.read .range rangeFields
  := rfl

/-- The arguments are found exactly if the operator is recognised. -/
theorem finds_rangeFields_iff {under : String → Option Json}
    (hunder : ∀ entry ∈ rangeArguments name text values options, under entry.1 = entry.2)
    (hvalues : values.depth ≤ fullRoom) (hoptions : ∀ json ∈ options, json.depth ≤ fullRoom)
    {found : Tuple [String, Option RangeOperator, Value, Value]} :
  rangeFields.Finds under found
    ↔ ∃ operator, RangeOperator.ofText text = .ok operator
      ∧ (name, some operator, .ofJson values, (options.map .ofJson).getD .null, ()) = found
  := by
  obtain ⟨own, operator?, value, option, ⟨⟩⟩ := found
  have hsome : (Absent.optional none).Reads (Doc.readOption RangeOperator.read) operator?
      (some (.string text))
      ↔ ∃ operator, RangeOperator.ofText text = .ok operator ∧ some operator = operator? := by
    simp only [← RangeOperator.read_string_eq_ok_iff]
    exact Except.map_eq_ok_iff
  have hread (json : Json) (hjson : json.depth ≤ fullRoom) (value : Value) :
      readValue (Doc.ofJson json) = .ok value ↔ value = .ofJson json := by
    have hgives : (readValue (Doc.ofJson json)).Gives _ _ :=
      (Doc.reads_tree json fullRoom).map Value.ofJson
    rw [hgives.eq_ok_iff, and_iff_right ⟨hjson, trivial⟩]
  have horElse : (Absent.default Value.null).Reads readValue option options
      ↔ option = (options.map .ofJson).getD .null := by
    cases options with
    | none => rfl
    | some json => exact hread json (hoptions json rfl) option
  simp only [rangeArguments, List.forall_mem_cons] at hunder
  obtain ⟨hname, hoperator, hvalue, hoption, -⟩ := hunder
  simp only [rangeFields, Fields.required, Fields.optional, Fields.orElse, Fields.Finds, hname,
    hoperator, hvalue, hoption, Absent.reads_missing_some, Doc.readString_eq_ok_iff,
    Json.string.injEq, hsome, hread values hvalues, horElse, and_true]
  constructor
  · rintro ⟨rfl, ⟨operator, hfound, rfl⟩, rfl, rfl⟩
    exact ⟨operator, hfound, rfl⟩
  · rintro ⟨operator, hfound, ⟨⟩⟩
    exact ⟨rfl, ⟨operator, hfound, rfl⟩, rfl, rfl⟩

/-- A range is read wherever it stands exactly if its operator is recognised. -/
theorem decides_range
    (htree : tree.IsRecord
      ((opKey, some (.string Op.range.label)) :: rangeArguments name text values options))
    {room : ℕ} (hdepth : tree.depth ≤ room) (hroom : room ≤ fullRoom) :
  RangeOperator.Decides text
    (fun operator =>
      .range name (some operator) (.ofJson values) ((options.map .ofJson).getD .null))
    (readNode room (Doc.ofJson tree))
  := by
  have hvalues : values.depth < tree.depth :=
    htree.depth_lt (show ("values", _) ∈ _ by simp [rangeArguments])
  have hoptions : ∀ json ∈ options, json.depth ≤ fullRoom := by
    rintro json rfl
    have hjson : json.depth < tree.depth :=
      htree.depth_lt (show ("options", _) ∈ _ by simp [rangeArguments])
    omega
  obtain ⟨room, rfl⟩ : ∃ inner, room = inner + 1 := ⟨room - 1, by omega⟩
  obtain ⟨rest, arguments, hrest, hnode, harguments⟩ := exists_readNode_eq htree room
  have hfields := RangeOperator.decides_fields (show rangeFields.keys.Nodup by decide)
    places_rangeFields hrest .tree ("struct variant QueryPlan::" ++ Op.range.title) Nat.one_pos
    fun under hunder found =>
      finds_rangeFields_iff hunder (show _ ≤ fullRoom by omega) hoptions
  rw [hnode, readArguments_range, harguments]
  apply hfields.map

/-- A record that gives the label of an operation names it. -/
theorem namesOp_of_isRecord {op : Op} {found : List (String × Option Json)}
    (h : tree.IsRecord ((opKey, some (.string op.label)) :: found)) :
  NamesOp tree
  := by
  cases tree with
  | object members =>
    obtain ⟨hmembers, hfound⟩ := h
    exact namesOp_of_mem hmembers (Json.mem_of_lookup (hfound _ List.mem_cons_self))
  | array items =>
    obtain rfl := h
    exact ⟨op, rfl⟩
  | _ => cases h

end

end Plan

namespace RangeOperator

/-- A text names an operator exactly if it has as many characters as the label of the operator and
differs from it in the case of letters alone, and the error for any other text holds it unchanged.
The same texts give the same operators where an operator is read on its own, in a range constraint
and in a range of a plan, in whichever form these are written and wherever they stand. -/
theorem named_in_either_case (text : String) :
  (∀ operator, ofText text = .ok operator
    ↔ text.length = operator.label.length
      ∧ Text.lowerLetters text.toList = Text.lowerLetters operator.label.toList)
  ∧ ((∀ operator, ofText text ≠ .ok operator) → ofText text = .error (.unknownRangeOperator text))
  ∧ Decides text id (read (Doc.ofJson (.string text)))
  ∧ (∀ {source}, Json.ofText source = .ok (.string text) →
    Decides text id ((Document.ofText source).read read))
  ∧ (∀ {name : String} {items : List Json} {options : List String} {body : Json},
    body.IsRecord (Query.rangeParameters name text items options) →
    let constraint operator := Query.rangeConstraint name operator (items.map Value.ofJson) options
    let tree := Tag.rangeConstraint.wrap body
    (∀ {room}, tree.depth ≤ room → Decides text constraint (Query.read room (Doc.ofJson tree)))
    ∧ ∀ {source}, Json.ofText source = .ok tree → Decides text constraint (Query.ofText source))
  ∧ ∀ {name : String} {values : Json} {options : Option Json} {tree : Json},
    tree.IsRecord ((Plan.opKey, some (.string Plan.Op.range.label))
      :: Plan.rangeArguments name text values options) →
    let range operator :=
      Plan.range name (some operator) (.ofJson values) ((options.map Value.ofJson).getD .null)
    (∀ {room}, tree.depth ≤ room → room ≤ fullRoom →
      Decides text range (Plan.readNode room (Doc.ofJson tree)))
    ∧ ∀ {source}, Json.ofText source = .ok tree → Decides text range (Plan.ofText source)
  := by
  refine ⟨fun operator => ?_, ofText_eq_error, ?alone, ?text, ?constraint, ?range⟩
  · rw [ofText_eq_ok_iff]
    exact (and_iff_right_of_imp length_eq_of_lowerLetters_eq).symm
  case alone =>
    exact decides_read
  case text =>
    intro source hsource
    rw [(Json.ofText_eq_ok_iff.mp hsource).1, Document.read_eq]
    exact decides_read
  case constraint =>
    intro name items options body hbody constraint tree
    use Query.decides_rangeConstraint hbody
    intro source hsource
    obtain ⟨hdoc, hdepth⟩ := Json.ofText_eq_ok_iff.mp hsource
    rw [Query.ofText, hdoc, Document.read_eq]
    exact Query.decides_rangeConstraint hbody hdepth
  case range =>
    intro name values options tree htree range
    use Plan.decides_range htree
    intro source hsource plan
    obtain ⟨hdoc, hdepth⟩ := Json.ofText_eq_ok_iff.mp hsource
    rw [Plan.ofText_eq_ok_iff hdoc, and_iff_right hdepth,
      and_iff_right (Plan.namesOp_of_isRecord htree)]
    exact Plan.decides_range htree hdepth (Nat.le_refl _) plan

/-- The letter `ŉ`, of which the upper case ends in `N`, stands for no letter of a label, while
a label in mixed case is recognised everywhere. -/
theorem named_in_either_case_mixed :
  let body := Json.array [.string "price", .string "gE", .array [.bool true], .array []]
  let tree := Json.object [("values", .null), ("operator", .string "gE"), ("note", .bool true),
    (Plan.opKey, .string Plan.Op.range.label), ("name", .string "price")]
  ofText "ŉe" = .error (.unknownRangeOperator "ŉe")
    ∧ (Document.ofText (Json.string "gE").compact).read read = .ok ge
    ∧ Query.ofText (Tag.rangeConstraint.wrap body).compact
      = .ok (.rangeConstraint "price" ge [.bool true] [])
    ∧ Plan.ofText tree.compact = .ok (.range "price" (some ge) .null .null)
  := by
  intro body tree
  obtain ⟨hother, hrefused, -⟩ := named_in_either_case "ŉe"
  obtain ⟨hletters, -, -, htext, hconstraint, hrange⟩ := named_in_either_case "gE"
  have hge : ofText "gE" = .ok ge := (hletters ge).mpr ⟨by decide, by decide⟩
  have hcompact (json : Json) (hdepth : json.depth ≤ fullRoom) :
      Json.ofText json.compact = .ok json :=
    Json.ofText_eq_ok_iff.mpr ⟨Document.ofText_compact json, hdepth⟩
  have hbody : body.IsRecord (Query.rangeParameters "price" "gE" [.bool true] []) := rfl
  have htree : tree.IsRecord ((Plan.opKey, some (.string Plan.Op.range.label))
      :: Plan.rangeArguments "price" "gE" .null none) := by
    constructor
    · decide
    · simp [Plan.rangeArguments, Plan.opKey, List.lookup_cons]
  refine ⟨?_, ?_, ?_, ?_⟩
  · apply hrefused
    intro operator hoperator
    have hsame := ((hother operator).mp hoperator).2
    cases operator <;> simp [label, Text.lowerLetters] at hsame
  · exact (htext (hcompact _ (by decide)) ge).mpr ⟨ge, hge, rfl⟩
  · exact ((hconstraint hbody).2 (hcompact _ (by decide)) _).mpr ⟨ge, hge, rfl⟩
  · exact ((hrange htree).2 (hcompact _ (by decide)) _).mpr ⟨ge, hge, rfl⟩

end RangeOperator

end StructuredQuery
