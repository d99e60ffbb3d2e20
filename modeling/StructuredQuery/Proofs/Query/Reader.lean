import StructuredQuery.Proofs.Query.Nodes
import StructuredQuery.Proofs.Record
import StructuredQuery.Proofs.Value
import StructuredQuery.Query.Reader
import StructuredQuery.Query.Wire

/-!
# Reading written parameters

The parameters of the productions that hold no queries are read as they were written.
-/

namespace StructuredQuery

namespace Doc

theorem reads_strings (room : ℕ) (texts : List String) :
  Reads room (readStrings room) (encodeStrings texts) True texts
  := reads_list_self (reads_string (room - 1)) texts

/-- Values are read from any trees for which there is room. -/
theorem reads_values_ofJson (room : ℕ) (items : List Json) :
  Reads room (readValues room) (.array items) True (items.map Value.ofJson)
  := by
  have hitem (item : Json) : Reads (room - 1) (readValue (room - 1)) item True (.ofJson item) :=
    (reads_tree item (room - 1)).map Value.ofJson
  have hlist : Reads room (readValues room) (.array (items.map id)) (∀ item ∈ items, True)
      (items.map Value.ofJson) := reads_list fun _ item _ => hitem item
  rw [List.map_id] at hlist
  apply hlist.congr (by simp) rfl

theorem reads_values (room : ℕ) (values : List Value) :
  Reads room (readValues room) (encodeValues values) True values
  := reads_list_self (reads_value (room - 1)) values

end Doc

theorem RangeOperator.reads (room : ℕ) (operator : RangeOperator) :
  Doc.Reads room RangeOperator.read (.string operator.label) True operator
  := by
  apply Doc.reads_of_eq_ok _ rfl
  cases operator <;> decide

theorem Words.strings?_map (texts : List String) :
  strings? (texts.map .string) = some texts
  := by
  induction texts with
  | nil => rfl
  | cons text texts ih =>
    rw [List.map_cons, strings?, ih]
    rfl

theorem Words.ofTree?_encode (words : Words) :
  ofTree? words.encode = some words
  := by
  cases words with
  | one text => rfl
  | many texts =>
    rw [encode, ofTree?, strings?_map]
    rfl

/-- Words are read as they were given, one alone or in a list. -/
theorem Words.reads (room : ℕ) (words : Words) :
  Doc.Reads room (Words.read room) words.encode True words
  := by
  apply Doc.reads_of_tree
  intro _
  rw [ofTree?_encode]

/-! ### Shapes -/

namespace ShapeLists

/-- The members of the lists of shapes are the fields of the lists. -/
theorem written (shapes : ShapeLists) :
  fields.Written fullRoom shapes.encodeMembers (True ∧ True ∧ True ∧ True ∧ True)
    (shapes.points, shapes.boxes, shapes.circles, shapes.polygons, ())
  := by
  apply Fields.Written.field (Doc.reads_values fullRoom shapes.points) (by simp)
  apply Fields.Written.field (Doc.reads_values fullRoom shapes.boxes) (by simp)
  apply Fields.Written.field (Doc.reads_values fullRoom shapes.circles) (by simp)
  apply Fields.Written.field (Doc.reads_values fullRoom shapes.polygons) (by simp)
  apply Fields.Written.done

/-- No list of shapes stands under one of some other keys. -/
theorem key_notMem {keys : List String}
    (h : ∀ key ∈ ["point", "box", "circle", "polygon"], key ∉ keys) (shapes : ShapeLists)
    {member : String × Json} (hmember : member ∈ shapes.encodeMembers) :
  member.1 ∉ keys
  := h member.1 (List.mem_map_of_mem hmember)

/-- The lists of shapes are read from their members. -/
theorem ofMembers_encodeMembers (shapes : ShapeLists)
    (h : Json.depthMembers shapes.encodeMembers ≤ fullRoom) :
  ofMembers shapes.encodeMembers = .ok shapes
  := (shapes.written.gives.map _).ok ⟨h, by simp⟩

/-- No lists of shapes are read where only other data stands. -/
theorem gives_ofMembers_text (json : Json) :
  (ofMembers [("text", json)]).Gives False .empty
  := by
  have hput := Fields.put?_eq_none (show "text" ∉ fields.keys by decide) (Doc.ofJson json)
    (Row.empty _)
  simp only [ofMembers, Fields.ofMembers, Doc.ofMembers, Fields.readMembers, Read.ofFlaw, hput,
    bind, Except.bind]
  cases (Doc.ofJson json).skip with
  | error flaw => apply Read.gives_error id
  | ok _ => apply Read.gives_error id

end ShapeLists

namespace Terms

theorem ofKey?_key (type : TermType) :
  TermType.ofKey? type.key = some type
  := by
  cases type <;> decide

theorem key_notMem {keys : List String} (h : ∀ type ∈ TermType.all, type.key ∉ keys)
    (terms : Terms) {member : String × Json} (hmember : member ∈ [terms.encodeMember]) :
  member.1 ∉ keys
  := by
  rw [List.mem_singleton.mp hmember]
  apply h terms.type
  cases terms.type <;> decide

/-- Terms are read from the member that holds them. -/
theorem ofMembers_encodeMember (terms : Terms)
    (h : Json.depthMembers [terms.encodeMember] ≤ fullRoom) :
  ofMembers [terms.encodeMember] = .ok terms
  := by
  have hitems : ∀ value ∈ terms.values, value.json.depth ≤ fullRoom := by
    simp only [encodeMember, Json.depthMembers, Json.depth, Nat.max_le] at h
    have hitems := Json.depthItems_le_iff.mp (Nat.le_of_succ_le h.1)
    exact fun value hvalue => hitems value.json (List.mem_map_of_mem hvalue)
  have hlist := Doc.gives_list (fun value (_ : value ∈ terms.values) =>
    Doc.reads_value fullRoom value) (show 0 < fullRoom by decide)
  have hread := hlist.ok fun value hvalue => ⟨hitems value hvalue, trivial⟩
  rw [List.map_id'] at hread
  simp only [ofMembers, encodeMember, List.findSome?_cons, ofKey?_key, Option.map_some, hread]
  rfl

end Terms

namespace Query

/-- Within a tree that fits into the room of a text, there is room for some of its members. -/
theorem depthMembers_le_fullRoom {room : ℕ} (hroom : room ≤ fullRoom)
    {members others : List (String × Json)} (hothers : others ⊆ members)
    (h : (Json.object members).depth ≤ room) :
  Json.depthMembers others ≤ fullRoom
  := by
  have hmembers : Json.depthMembers members ≤ fullRoom := by
    rw [Json.depth] at h
    omega
  rw [Json.depthMembers_le_iff] at hmembers ⊢
  exact fun member hmember => hmembers member (hothers hmember)

/-- A geospatial constraint is read from its parameters. -/
theorem reads_geospatial {room : ℕ} (hroom : room ≤ fullRoom) (name : String)
    (shapes : ShapeLists) :
  Doc.Reads room (readGeospatial room)
    (.object (("constraint-name", .string name) :: shapes.encodeMembers)) True
    (.geospatialConstraint name shapes)
  := by
  have hwritten : (Fields.required "constraint-name" Doc.readString .done).Written (room - 1)
      [("constraint-name", .string name)] (True ∧ True) (name, ()) :=
    .field (Doc.reads_string (room - 1) name) (by simp) .done
  have hopen := Fields.Written.reads_open (fun _ => hwritten)
    (fun member hmember => shapes.key_notMem (by decide) hmember)
    "struct GeospatialConstraintQuery"
  apply (hopen.bind_ok fun h => ?_).congr (by simp) rfl
  have hdepth := depthMembers_le_fullRoom hroom (List.subset_cons_self _ _) h.1
  show (ShapeLists.ofMembers shapes.encodeMembers >>= fun lists =>
    pure (Query.geospatialConstraint name lists)) = _
  rw [shapes.ofMembers_encodeMembers hdepth]
  rfl

/-- A value constraint is read from its parameters if its weight is finite. -/
theorem reads_valueConstraint {room : ℕ} (hroom : room ≤ fullRoom) (name : String)
    (weight : Double) (terms : Terms) :
  Doc.Reads room (readValueConstraint room)
    (.object [("constraint-name", .string name), ("weight", .ofDouble weight),
      terms.encodeMember]) weight.IsFinite (.valueConstraint name weight terms)
  := by
  have hwritten : (Fields.required "constraint-name" Doc.readString
      (.required "weight" Doc.readDouble .done)).Written (room - 1)
      [("constraint-name", .string name), ("weight", .ofDouble weight)]
      (True ∧ weight.IsFinite ∧ True) (name, weight, ()) :=
    .field (Doc.reads_string (room - 1) name) (by simp) <|
      .field (Doc.reads_double (room - 1) weight) (by simp) .done
  have hopen := Fields.Written.reads_open (fun _ => hwritten)
    (fun member hmember => terms.key_notMem (by decide) hmember)
    "struct ValueConstraintQuery"
  apply (hopen.bind_ok fun h => ?_).congr (by simp) rfl
  have hdepth : Json.depthMembers [terms.encodeMember] ≤ fullRoom :=
    depthMembers_le_fullRoom hroom (by simp) h.1
  show (Terms.ofMembers [terms.encodeMember] >>= fun terms =>
    pure (Query.valueConstraint name weight terms)) = _
  rw [terms.ofMembers_encodeMember hdepth]
  rfl

/-! ### Custom constraints -/

/-- The remark that is read: one of null is written like any other and read as none. -/
def readRemark (remark : Option Value) : Option Value :=
  remark.filter (· ≠ .null)

theorem readRemark_eq {remark : Option Value} (h : ∀ value ∈ remark, value ≠ .null) :
  readRemark remark = remark
  := by
  cases remark with
  | none => rfl
  | some value => simpa [readRemark] using h value rfl

/-- The parameters of a custom constraint over shapes. -/
def encodeCustomGeospatial (name : String) (remark : Option Value) (shapes : ShapeLists) : Json :=
  .object (("constraint-name", .string name)
    :: (remark.toList.map fun value => ("annotation", value.json)) ++ shapes.encodeMembers)

/-- The parameters of a custom constraint over terms. -/
def encodeCustomTerms (name : String) (text : List String) : Json :=
  .object [("constraint-name", .string name), ("text", encodeStrings text)]

theorem written_remark (name : String) (remark : Option Value) :
  ∃ condition : Prop, condition ∧
    (Fields.required "constraint-name" Doc.readString
      (.optional "annotation" (Doc.readValue fullRoom) .done)).Written fullRoom
      (("constraint-name", .string name)
        :: remark.toList.map fun value => ("annotation", value.json))
      condition (name, readRemark remark, ())
  := by
  cases remark with
  | none =>
    use True ∧ True, by simp
    apply Fields.Written.field (Doc.reads_string fullRoom name) (by simp)
    apply Fields.Written.absent (by simp) .done
  | some value =>
    use True ∧ True ∧ True, by simp
    apply Fields.Written.field (Doc.reads_string fullRoom name) (by simp)
    by_cases hnull : value = .null
    · subst hnull
      apply Fields.Written.field (Doc.reads_option_none fullRoom _) (by simp) .done
    · have hjson : value.json ≠ .null := fun h => hnull (Value.ext_json h)
      have hremark : readRemark (some value) = some value := by simp [readRemark, hnull]
      rw [hremark]
      apply Fields.Written.field (Doc.reads_option_some hjson (Doc.reads_value fullRoom value))
        (by simp) .done

theorem readCustomGeospatial_encode {name : String} {remark : Option Value} {shapes : ShapeLists}
    (h : (encodeCustomGeospatial name remark shapes).depth ≤ fullRoom) :
  readCustomGeospatial (Doc.ofJson (encodeCustomGeospatial name remark shapes))
    = .ok (.customGeospatialConstraint name (readRemark remark) shapes)
  := by
  obtain ⟨condition, hcondition, hwritten⟩ := written_remark name remark
  have hmembers := depthMembers_le_fullRoom (Nat.le_refl fullRoom)
    (List.subset_append_left _ shapes.encodeMembers) h
  have hshapes : Json.depthMembers shapes.encodeMembers ≤ fullRoom - 1 := by
    rw [encodeCustomGeospatial, Json.depth, Json.depthMembers_append] at h
    omega
  have hopen := hwritten.gives_open (fun _ hmember => shapes.key_notMem (by decide) hmember)
    (show 0 < fullRoom by decide) "struct CustomGeospatialQuery"
  apply (hopen.bind_ok fun _ => ?_).ok ⟨⟨hmembers, hcondition⟩, hshapes⟩
  show (ShapeLists.ofMembers shapes.encodeMembers >>= fun lists =>
    pure (Query.customGeospatialConstraint name (readRemark remark) lists)) = _
  rw [shapes.ofMembers_encodeMembers (Nat.le_succ_of_le hshapes)]
  rfl

/-- The parameters over terms are no parameters over shapes: no lists of shapes are there. -/
theorem readCustomGeospatial_encodeCustomTerms (name : String) (text : List String) :
  ∃ cause, readCustomGeospatial (Doc.ofJson (encodeCustomTerms name text)) = .error cause
  := by
  obtain ⟨condition, -, hwritten⟩ := written_remark name none
  have hothers : ∀ member ∈ [("text", encodeStrings text)],
      member.1 ∉ ["constraint-name", "annotation"] := by simp
  have hopen := hwritten.gives_open hothers (show 0 < fullRoom by decide)
    "struct CustomGeospatialQuery"
  have hlists : (ShapeLists.ofMembers [("text", encodeStrings text)] >>= fun lists =>
      (pure (.customGeospatialConstraint name none lists) : Read Query)).Gives False
        (.customGeospatialConstraint name none .empty) :=
    (ShapeLists.gives_ofMembers_text (encodeStrings text)).bind_ok fun _ => rfl
  exact (hopen.bind fun _ => hlists).error fun h => h.2

theorem readCustomTerms_encode {name : String} {text : List String}
    (h : (encodeCustomTerms name text).depth ≤ fullRoom) :
  readCustomTerms (Doc.ofJson (encodeCustomTerms name text)) = .ok (.customConstraint name text)
  := by
  have hwritten : (Fields.required "constraint-name" Doc.readString
      (.required "text" (Doc.readStrings fullRoom) .done)).Written fullRoom
      [("constraint-name", .string name), ("text", encodeStrings text)] (True ∧ True ∧ True)
      (name, text, ()) := by
    apply Fields.Written.field (Doc.reads_string fullRoom name) (by simp)
    apply Fields.Written.field (Doc.reads_strings fullRoom text) (by simp) .done
  have hdepth := depthMembers_le_fullRoom (Nat.le_refl fullRoom) (List.Subset.refl _) h
  apply (hwritten.gives.map _).ok ⟨hdepth, by simp⟩

/-- A custom constraint over shapes is read from its parameters, a remark of null as none. -/
theorem reads_customGeospatial {room : ℕ} (hroom : room ≤ fullRoom) (name : String)
    (remark : Option Value) (shapes : ShapeLists) :
  Doc.Reads room (readCustom room) (encodeCustomGeospatial name remark shapes) True
    (.customGeospatialConstraint name (readRemark remark) shapes)
  := by
  apply Doc.reads_of_tree
  intro hdepth
  have hread := readCustomGeospatial_encode (Nat.le_trans hdepth hroom)
  simp only [customOfTree?, List.findSome?_cons, hread, Except.toOption]

/-- A custom constraint over terms is read from its parameters. -/
theorem reads_customTerms {room : ℕ} (hroom : room ≤ fullRoom) (name : String)
    (text : List String) :
  Doc.Reads room (readCustom room) (encodeCustomTerms name text) True
    (.customConstraint name text)
  := by
  apply Doc.reads_of_tree
  intro hdepth
  obtain ⟨cause, hgeospatial⟩ := readCustomGeospatial_encodeCustomTerms name text
  have hterms := readCustomTerms_encode (Nat.le_trans hdepth hroom)
  simp only [customOfTree?, List.findSome?_cons, hgeospatial, hterms, Except.toOption]

end Query

end StructuredQuery
