import Mathlib.Data.List.Forall2
import StructuredQuery.Options
import StructuredQuery.Proofs.Except
import StructuredQuery.Proofs.Record.Lookup
import StructuredQuery.Proofs.Value

/-!
# The form of search options

`Value.HasRoot`, `Value.HasItems` and `Value.Defines` say where in a document the definitions
stand and what an item must be.  Search options are taken from a document exactly if it is of
this form, and they keep all of it: one definition for each item, in order, with the name and
with every other field of the item.
-/

namespace StructuredQuery

namespace Value

/-- The value that holds the options of a document: what stands under `options`, or else the
document itself. -/
inductive HasRoot (value : Value) : Value → Prop where
  | inside {root : Value} (h : value.get? "options" = some root) : HasRoot value root
  | self (h : value.get? "options" = none) : HasRoot value value

/-- The items under `constraint`, which may be left out: a list of them, or one item. -/
inductive HasItems (root : Value) : List Value → Prop where
  | absent (h : root.get? "constraint" = none) : HasItems root []
  | null (h : root.get? "constraint" = some .null) : HasItems root []
  | list {items : List Value} (h : root.get? "constraint" = some (.array items)) :
      HasItems root items
  | single {item : Value} (h : root.get? "constraint" = some item) (hnull : item ≠ .null)
      (harray : ∀ items, item ≠ .array items) : HasItems root [item]

/-- All fields but the one under the key. -/
def without (key : String) (fields : List (String × Value)) : List (String × Value) :=
  fields.filter fun field => field.1 ≠ key

/-- The item has the name, and its other fields are the body. -/
structure Defines (item : Value) (definition : Definition) : Prop where
  name : item.get? "name" = some (.string definition.name)
  body : definition.body.fields? = item.fields?.map (without "name")

/-! ### The items of a document -/

theorem exists_hasRoot (value : Value) :
  ∃ root, value.HasRoot root
  := by
  cases h : value.get? "options" with
  | none => exact ⟨value, .self h⟩
  | some root => exact ⟨root, .inside h⟩

theorem exists_hasItems (root : Value) :
  ∃ items, root.HasItems items
  := by
  cases h : root.get? "constraint" with
  | none => exact ⟨[], .absent h⟩
  | some item =>
    by_cases hnull : item = .null
    · subst hnull
      exact ⟨[], .null h⟩
    · by_cases harray : ∃ items, item = .array items
      · obtain ⟨items, rfl⟩ := harray
        exact ⟨items, .list h⟩
      · exact ⟨[item], .single h hnull (not_exists.mp harray)⟩

/-- An object under `constraint` is the only item. -/
theorem hasItems_object {root item : Value} (h : root.get? "constraint" = some item)
    (hitem : item.fields?.isSome) :
  root.HasItems [item]
  := by
  apply HasItems.single h
  · rintro rfl
    cases hitem
  · rintro items rfl
    rw [fields?, view_array] at hitem
    cases hitem

theorem HasRoot.root_eq {value root : Value} (h : value.HasRoot root) :
  Options.root value = root
  := by
  cases h with
  | inside h | self h => rw [Options.root, h, Option.getD]

theorem HasItems.entries_eq {root : Value} {items : List Value} (h : root.HasItems items)
    {fields : List (String × Value)} (hfields : root.fields? = some fields) :
  Options.entries fields = items
  := by
  rw [Options.entries]
  cases h with
  | absent h =>
    rw [get?_of_fields? hfields] at h
    rw [h]
  | null h =>
    rw [get?_of_fields? hfields] at h
    rw [h]
    rfl
  | list h =>
    rw [get?_of_fields? hfields] at h
    rw [h]
    apply given_array
  | single h hnull harray =>
    rw [get?_of_fields? hfields] at h
    rw [h]
    apply given_of_single hnull harray

/-! ### Definitions -/

theorem members_without (key : String) (fields : List (String × Value)) :
  ((members fields).filter fun member => member.1 ∉ [key]) = members (without key fields)
  := by
  rw [members, List.filter_map, members, without]
  congr 1
  apply List.filter_congr
  intro field _
  simp

theorem sorted_without {value : Value} {fields : List (String × Value)}
    (h : value.fields? = some fields) (key : String) :
  Json.Sorted (members (without key fields))
  := by
  rw [← members_without]
  apply List.Pairwise.sublist _ (sorted_members h)
  apply List.filter_sublist.map

theorem depth_without_lt {value : Value} {fields : List (String × Value)}
    (h : value.fields? = some fields) (key : String) :
  Json.depthMembers (members (without key fields)) < value.json.depth
  := by
  rw [fields?_eq_some_iff.mp h, Json.depth, Nat.lt_succ_iff, Json.depthMembers_le_iff,
    ← members_without]
  intro member hmember
  apply Json.depthMembers_le_iff.mp (Nat.le_refl _) member (List.mem_of_mem_filter hmember)

end Value

namespace Definition

variable {item : Value} {fields : List (String × Value)}

/-- What a reader finds under the name. -/
theorem finds_name_iff (h : item.fields? = some fields) {values : Tuple [String]} :
  (Fields.required "name" Doc.readString .done).Finds ((Value.members fields).lookup ·) values
    ↔ item.get? "name" = some (.string values.1)
  := by
  obtain ⟨name, values⟩ := values
  simp only [Fields.required, Fields.Finds, and_true, Value.lookup_members,
    Value.get?_of_fields? h]
  cases fields.lookup "name" with
  | none => exact iff_of_false id (Option.some_ne_none _).symm
  | some value =>
    rw [Option.some_inj]
    apply Iff.trans Doc.readString_eq_ok_iff
    exact ⟨fun h => Value.ext_json h, congrArg Value.json⟩

/-- What is read is the name, and all members but the name. -/
theorem readOpen_eq_ok_iff (h : item.fields? = some fields) (values : Tuple [String])
    (others : List (String × Json)) :
  (Fields.required "name" Doc.readString .done).readOpen "struct ConstraintDefinition"
      item.json.depth (Doc.ofJson item.json) = .ok (values, others)
    ↔ item.get? "name" = some (.string values.1)
      ∧ others = Value.members (Value.without "name" fields)
  := by
  have hdepth := Value.depth_without_lt h "name"
  generalize item.json.depth = room at hdepth
  have hkeys : (Fields.required "name" Doc.readString .done).keys = ["name"] := rfl
  have hnodup : (Fields.required "name" Doc.readString .done).keys.Nodup := List.nodup_singleton _
  rw [Value.fields?_eq_some_iff.mp h,
    Fields.readOpen_eq_ok_iff (Value.sorted_members h).nodup hnodup, finds_name_iff h, hkeys,
    Value.members_without]
  apply and_congr_right
  intro _
  apply and_iff_left_of_imp
  rintro rfl
  apply hdepth

/-- A definition is read from the items that define it. -/
theorem ofValue_eq_ok_iff {definition : Definition} :
  ofValue item = .ok definition ↔ item.Defines definition
  := by
  cases hfields : item.fields? with
  | none =>
    constructor
    · intro h
      obtain ⟨values, hopen, -⟩ := Except.bind_eq_ok_iff.mp h
      obtain ⟨json, hcanonical⟩ := item
      cases json with
      | object members => cases hfields
      | _ => exact absurd hopen (Doc.refuse_ne_ok _ _ _)
    · intro h
      obtain ⟨fields, hsome, -⟩ := Value.exists_fields?_of_get? h.name
      rw [hfields] at hsome
      cases hsome
  | some fields =>
    have hbody := Value.fields?_ofJson (Value.sorted_without hfields "name")
    rw [ofValue, Except.bind_eq_ok_iff]
    constructor
    · rintro ⟨⟨values, others⟩, hread, ⟨⟩⟩
      obtain ⟨hname, rfl⟩ := (readOpen_eq_ok_iff hfields _ _).mp hread
      use hname
      rw [hbody, hfields]
      rfl
    · intro h
      have hdefined := h.body
      rw [hfields, Option.map_some] at hdefined
      refine ⟨_, (readOpen_eq_ok_iff hfields (definition.name, ()) _).mpr ⟨h.name, rfl⟩, ?_⟩
      apply congrArg (Except.ok ∘ mk definition.name) (Value.eq_of_fields? hbody hdefined)

/-- An item defines something if it is an object with a string as its name. -/
theorem exists_defines_iff :
  (∃ definition, item.Defines definition) ↔ ∃ name, item.get? "name" = some (.string name)
  := by
  constructor
  · rintro ⟨definition, h⟩
    use definition.name, h.name
  · rintro ⟨name, hname⟩
    obtain ⟨fields, hfields, -⟩ := Value.exists_fields?_of_get? hname
    use ⟨name, .ofJson (.object (Value.members (Value.without "name" fields)))⟩, hname
    rw [Value.fields?_ofJson (Value.sorted_without hfields "name"), hfields]
    rfl

end Definition

/-! ### Documents -/

namespace Options

/-- Search options whose root is an object hold what the items define. -/
theorem ofValue_eq {value root : Value} (hroot : value.HasRoot root)
    {fields : List (String × Value)} (hfields : root.fields? = some fields) {items : List Value}
    (hitems : root.HasItems items) :
  ofValue value = mk <$> (items.mapM Definition.ofValue).mapError .badData
  := by
  rw [ofValue, hroot.root_eq, hfields]
  simp only [hitems.entries_eq hfields]
  rfl

theorem ofValue_eq_ok_iff {value root : Value} (hroot : value.HasRoot root)
    {fields : List (String × Value)} (hfields : root.fields? = some fields) {items : List Value}
    (hitems : root.HasItems items) {definitions : List Definition} :
  ofValue value = .ok ⟨definitions⟩ ↔ List.Forall₂ Value.Defines items definitions
  := by
  have hdefines : (fun item definition => Definition.ofValue item = .ok definition)
      = Value.Defines := by
    funext item definition
    apply propext Definition.ofValue_eq_ok_iff
  rw [ofValue_eq hroot hfields hitems, Except.map_eq_ok_iff, ← hdefines,
    ← Except.mapM_eq_ok_iff_forall₂]
  simp only [Except.mapError_eq_ok_iff, mk.injEq, exists_eq_right]

theorem ofValue_eq_optionsNotObject_iff {value root : Value} (hroot : value.HasRoot root) :
  ofValue value = .error .optionsNotObject ↔ root.fields? = none
  := by
  cases hfields : root.fields? with
  | none =>
    rw [ofValue, hroot.root_eq, hfields]
    exact ⟨fun _ => rfl, fun _ => rfl⟩
  | some fields =>
    obtain ⟨items, hitems⟩ := Value.exists_hasItems root
    rw [ofValue_eq hroot hfields hitems]
    cases items.mapM Definition.ofValue <;> exact ⟨nofun, nofun⟩

/-- Search options hold definitions if every item defines one. -/
theorem exists_ofValue_iff {value root : Value} (hroot : value.HasRoot root)
    {fields : List (String × Value)} (hfields : root.fields? = some fields) {items : List Value}
    (hitems : root.HasItems items) :
  (∃ options, ofValue value = .ok options) ↔ ∀ item ∈ items, ∃ definition, item.Defines definition
  := by
  simp only [ofValue_eq hroot hfields hitems, Except.map_eq_ok_iff, Except.mapError_eq_ok_iff,
    ← Definition.ofValue_eq_ok_iff]
  constructor
  · rintro ⟨-, definitions, hdefinitions, -⟩
    apply Except.exists_of_mapM hdefinitions
  · intro h
    obtain ⟨definitions, hdefinitions⟩ := Except.exists_mapM h
    use ⟨definitions⟩, definitions

/-- Search options are refused for bad data if an item defines nothing. -/
theorem exists_badData_iff {value root : Value} (hroot : value.HasRoot root)
    {fields : List (String × Value)} (hfields : root.fields? = some fields) {items : List Value}
    (hitems : root.HasItems items) :
  (∃ cause, ofValue value = .error (.badData cause))
    ↔ ∃ item ∈ items, ¬∃ definition, item.Defines definition
  := by
  have hok := exists_ofValue_iff hroot hfields hitems
  rw [ofValue_eq hroot hfields hitems] at hok ⊢
  cases hmap : items.mapM Definition.ofValue with
  | ok definitions =>
    rw [hmap] at hok
    constructor
    · rintro ⟨cause, ⟨⟩⟩
    · rintro ⟨item, hitem, hnone⟩
      exact absurd (hok.mp ⟨⟨definitions⟩, rfl⟩ item hitem) hnone
  | error cause =>
    rw [hmap] at hok
    constructor
    · intro _
      by_contra h
      obtain ⟨options, ⟨⟩⟩ := hok.mpr fun item hitem =>
        by_contra fun hnone => h ⟨item, hitem, hnone⟩
    · intro _
      exact ⟨cause, rfl⟩

/-- Options under `options` are those of the options on their own, unless these have that key
themselves. -/
theorem ofValue_wrapped {value : Value} (h : value.get? "options" = none) :
  ofValue (.object [("options", value)]) = ofValue value
  := by
  have houter : (Value.object [("options", value)]).HasRoot value :=
    .inside rfl
  have hinner : value.HasRoot value := .self h
  rw [ofValue, ofValue, houter.root_eq, hinner.root_eq]

/-- An object in place of a list of it makes no difference, whatever else there is. -/
theorem ofValue_single {value other root last item : Value} (hroot : value.HasRoot root)
    (hlast : other.HasRoot last) (hitem : item.fields?.isSome)
    (hsingle : root.get? "constraint" = some item)
    (hlist : last.get? "constraint" = some (.array [item])) :
  ofValue value = ofValue other
  := by
  obtain ⟨fields, hfields, -⟩ := Value.exists_fields?_of_get? hsingle
  obtain ⟨others, hothers, -⟩ := Value.exists_fields?_of_get? hlist
  rw [ofValue_eq hroot hfields (Value.hasItems_object hsingle hitem),
    ofValue_eq hlast hothers (.list hlist)]

/-- Every document has a root.  Search options are refused as no object exactly if the root is
none.  The items of an object are all kept, as definitions in the same order with the names and
all other fields, if each of them is an object with a string as its name; if one is not, the
document is refused as bad data.  Only one level of `options` is opened, and it makes no
difference, nor does an object in place of a list of it. -/
theorem ofValue_keeps_definitions (value : Value) :
  (∃ root, value.HasRoot root)
  ∧ (∀ root, value.HasRoot root →
    (ofValue value = .error .optionsNotObject ↔ root.fields? = none)
    ∧ (root.fields?.isSome → (∃ items, root.HasItems items) ∧ ∀ items, root.HasItems items →
      (∀ definitions,
        ofValue value = .ok ⟨definitions⟩ ↔ List.Forall₂ Value.Defines items definitions)
      ∧ ((∃ options, ofValue value = .ok options)
        ↔ ∀ item ∈ items, ∃ name, item.get? "name" = some (.string name))
      ∧ ((∃ cause, ofValue value = .error (.badData cause))
        ↔ ∃ item ∈ items, ¬∃ name, item.get? "name" = some (.string name)))
    ∧ ∀ other last item, other.HasRoot last → item.fields?.isSome →
      root.get? "constraint" = some item → last.get? "constraint" = some (.array [item]) →
        ofValue value = ofValue other)
  ∧ (value.get? "options" = none → ofValue (.object [("options", value)]) = ofValue value)
  := by
  refine ⟨Value.exists_hasRoot value, ?_, ofValue_wrapped⟩
  intro root hroot
  refine ⟨ofValue_eq_optionsNotObject_iff hroot, ?_,
    fun other last item hlast => ofValue_single hroot hlast⟩
  intro hobject
  obtain ⟨fields, hfields⟩ := Option.isSome_iff_exists.mp hobject
  use Value.exists_hasItems root
  intro items hitems
  simp only [← Definition.exists_defines_iff]
  exact ⟨fun _ => ofValue_eq_ok_iff hroot hfields hitems,
    exists_ofValue_iff hroot hfields hitems, exists_badData_iff hroot hfields hitems⟩

/-- A single definition, whose body has a field that is null and a key that is read at the top
only, and a document with an item that has no name. -/
theorem ofValue_keeps_definitions_single :
  let inner : Value := .object [("options", .null), ("word", .array [])]
  let item : Value := .object [("name", .string "tag"), ("options", .null), ("word", .array [])]
  let options : Value := .object [("constraint", item)]
  let nameless : Value := .object [("constraint", .array [item, inner])]
  ofValue (.object [("options", options)]) = .ok ⟨[⟨"tag", inner⟩]⟩
    ∧ ∃ cause, ofValue nameless = .error (.badData cause)
  := by
  intro inner item options nameless
  obtain ⟨-, hwrapped, -⟩ := ofValue_keeps_definitions (.object [("options", options)])
  obtain ⟨-, hbare, -⟩ := ofValue_keeps_definitions nameless
  obtain ⟨-, hitems, -⟩ := hwrapped options (.inside rfl)
  obtain ⟨-, hothers, -⟩ := hbare nameless (.self rfl)
  constructor
  · apply (((hitems rfl).2 [item] (Value.hasItems_object rfl rfl)).1 _).mpr
    apply List.Forall₂.cons ⟨rfl, rfl⟩ .nil
  · apply ((hothers rfl).2 [item, inner] (.list rfl)).2.2.mpr
    use inner, List.mem_cons_of_mem item List.mem_cons_self
    rintro ⟨name, ⟨⟩⟩

end Options

end StructuredQuery
