import Mathlib.Logic.Relation
import StructuredQuery.Proofs.Plan.Order
import StructuredQuery.Proofs.Query.RoundTrip

/-!
# Queries in any order

The wire form of a query is read as the same query in any order of the members of its objects, if
no object repeats a key.  One thing more is needed of the value constraints in it: of several
keys that name a type the reader takes the first one, so there must be only one.
-/

namespace StructuredQuery

/-! ### Terms and shapes -/

namespace Terms

variable {members lasts : List (String × Json)}

theorem eq_key_of_ofKey? {key : String} {type : TermType} (h : TermType.ofKey? key = some type) :
  key = type.key
  := by
  simpa [eq_comm] using List.find?_some h

/-- The first member that names a type. -/
def typed? (members : List (String × Json)) : Option (TermType × Json) :=
  members.findSome? fun (key, json) => (TermType.ofKey? key).map (·, json)

theorem mem_of_typed? {type : TermType} {json : Json} (h : typed? members = some (type, json)) :
  (type.key, json) ∈ members
  := by
  obtain ⟨member, hmember, hkey⟩ := List.exists_of_findSome?_eq_some h
  obtain ⟨first, hfirst, ⟨⟩⟩ := Option.map_eq_some_iff.mp hkey
  rw [← eq_key_of_ofKey? hfirst]
  apply hmember

/-- The only member that names a type is the first one. -/
theorem typed?_of_mem (hkeys : (members.map Prod.fst).Nodup) {type : TermType} {json : Json}
    (hmember : (type.key, json) ∈ members)
    (h : ∀ other : TermType, other.key ∈ members.map Prod.fst → other = type) :
  typed? members = some (type, json)
  := by
  cases hfound : typed? members with
  | none =>
    have hnone := List.findSome?_eq_none_iff.mp hfound _ hmember
    simp only [ofKey?_key, Option.map_some, reduceCtorEq] at hnone
  | some found =>
    obtain ⟨first, tree⟩ := found
    have hfirst := mem_of_typed? hfound
    obtain rfl := h first (List.mem_map_of_mem hfirst)
    rw [← Json.lookup_eq_some_iff hkeys] at hfirst hmember
    rw [Option.some.inj (hfirst.symm.trans hmember)]

theorem ofMembers_eq_ok_iff {terms : Terms} :
  ofMembers members = .ok terms
    ↔ ∃ json, typed? members = some (terms.type, json)
      ∧ (Doc.ofJson json).readList fullRoom (Doc.readValue fullRoom) = .ok terms.values
  := by
  rw [ofMembers, ← typed?]
  cases typed? members with
  | none => simp
  | some found =>
    simp only [Except.map_eq_ok_iff, Option.some.injEq, Prod.ext_iff]
    constructor
    · rintro ⟨values, hvalues, rfl⟩
      exact ⟨found.2, ⟨rfl, rfl⟩, hvalues⟩
    · rintro ⟨json, ⟨htype, rfl⟩, hvalues⟩
      use terms.values, hvalues
      rw [htype]

/-- Terms are read alike in any order if only one key names a type. -/
theorem ofMembers_of_reordered
    (h : (Doc.ofJson (.object members)).Reordered (Doc.ofJson (.object lasts)))
    (hkeys : (Doc.ofJson (.object members)).Unrepeated) {only : TermType}
    (honly : ∀ other : TermType, other.key ∈ members.map Prod.fst → other = only) {terms : Terms}
    (hread : ofMembers members = .ok terms) :
  ofMembers lasts = .ok terms
  := by
  rw [ofMembers_eq_ok_iff] at hread ⊢
  obtain ⟨json, hfound, hvalues⟩ := hread
  have hmember := mem_of_typed? hfound
  obtain ⟨tree, htree, hjson⟩ := h.exists_tree hmember
  use tree
  constructor
  · have hlasts := (h.unrepeated hkeys).1
    rw [Doc.keys_ofMembers] at hlasts
    apply typed?_of_mem hlasts htree
    intro other hother
    obtain ⟨⟨key, moved⟩, hlast, hkey⟩ := List.mem_map.mp hother
    obtain ⟨first, hfirst, -⟩ := h.symm.exists_tree hlast
    rw [honly terms.type (List.mem_map_of_mem hmember)]
    apply honly other
    rw [← hkey]
    apply List.mem_map_of_mem hfirst
  · apply Doc.steady_list _ _ hjson _ hvalues
    intro part hpart
    apply Doc.steady_value
    apply Doc.Unrepeated.of_mem_items _ hpart
    apply Doc.unrepeatedMembers_iff.mp hkeys.2 (.ok terms.type.key, Doc.ofJson json)
    rw [Doc.ofMembers_eq_map]
    apply List.mem_map_of_mem hmember

end Terms

theorem Doc.steady_values {doc : Doc} (h : doc.Unrepeated) (room : ℕ) :
  doc.Steady (readValues room)
  := by
  apply steady_list
  exact fun part hpart => steady_value (h.of_mem_items hpart) (room - 1)

theorem Doc.steady_strings (doc : Doc) (room : ℕ) :
  doc.Steady (readStrings room)
  := by
  apply steady_list
  exact fun part _ => steady_string part

/-- The lists of shapes are read alike in any order. -/
theorem ShapeLists.ofMembers_of_reordered {members lasts : List (String × Json)}
    (h : (Doc.ofJson (.object members)).Reordered (Doc.ofJson (.object lasts)))
    (hkeys : (Doc.ofJson (.object members)).Unrepeated) {shapes : ShapeLists}
    (hread : ofMembers members = .ok shapes) :
  ofMembers lasts = .ok shapes
  := by
  have hlist {key : String} {index : ℕ} (part : Doc)
      (hpart : (Doc.ofJson (.object members)).Holds key index part) :
      part.Steady (Doc.readValues fullRoom) :=
    Doc.steady_values (hpart.unrepeated hkeys) fullRoom
  have hfields : fields.Steady (Doc.ofJson (.object members)).Holds 0 :=
    ⟨hlist, hlist, hlist, hlist, trivial⟩
  rw [ofMembers, Except.map_eq_ok_iff] at hread ⊢
  obtain ⟨lists, hlists, hshapes⟩ := hread
  use lists
  constructor
  · apply Fields.ofMembers_of_reordered h hkeys.1 hfields hlists
  · apply hshapes

namespace Query

variable {doc : Doc}

/-! ### Bodies without queries -/

/-- An open record of shapes is read alike in any order. -/
theorem steady_shapes {types : List Type} {fields : Fields types} (hkeys : doc.Unrepeated)
    (hfields : fields.Steady doc.Holds 0) (name : String) (room : ℕ)
    (build : Tuple types → ShapeLists → Query) :
  doc.Steady fun doc => do
    let (values, others) ← fields.readOpen name room doc
    return build values (← ShapeLists.ofMembers others)
  := by
  intro other h query hread
  obtain ⟨⟨values, others⟩, hopen, hread⟩ := Except.bind_eq_ok_iff.mp hread
  obtain ⟨shapes, hshapes, hquery⟩ := Except.bind_eq_ok_iff.mp hread
  obtain ⟨hunrepeated, lasts, hlasts, hopen⟩ := Fields.readOpen_of_reordered h hkeys hfields hopen
  have hshapes := ShapeLists.ofMembers_of_reordered hlasts hunrepeated hshapes
  apply Except.bind_eq_ok_iff.mpr ⟨(values, lasts), hopen, _⟩
  apply Except.bind_eq_ok_iff.mpr ⟨shapes, hshapes, hquery⟩

theorem steady_readGeospatial (hkeys : doc.Unrepeated) (room : ℕ) :
  doc.Steady (readGeospatial room)
  := by
  have hfields : (Fields.required "constraint-name" Doc.readString .done).Steady doc.Holds 0 :=
    ⟨fun part _ => Doc.steady_string part, trivial⟩
  apply steady_shapes hkeys hfields "struct GeospatialConstraintQuery" room
    fun (name, _) shapes => .geospatialConstraint name shapes

theorem steady_readCustomGeospatial (hkeys : doc.Unrepeated) :
  doc.Steady readCustomGeospatial
  := by
  have hremark (part : Doc) (hpart : doc.Holds "annotation" 1 part) :
      part.Steady (Doc.readOption (Doc.readValue fullRoom)) :=
    Doc.steady_option (Doc.steady_value (hpart.unrepeated hkeys) fullRoom)
  have hfields : (Fields.required "constraint-name" Doc.readString
      (.optional "annotation" (Doc.readValue fullRoom) .done)).Steady doc.Holds 0 :=
    ⟨fun part _ => Doc.steady_string part, hremark, trivial⟩
  apply steady_shapes hkeys hfields "struct CustomGeospatialQuery" fullRoom
    fun (name, remark, _) shapes => .customGeospatialConstraint name remark shapes

theorem steady_readCustomTerms (hkeys : doc.Unrepeated) :
  doc.Steady readCustomTerms
  := by
  apply Doc.Steady.map
  apply Fields.steady_read hkeys
  exact ⟨fun part _ => Doc.steady_string part, fun part _ => Doc.steady_strings part fullRoom,
    trivial⟩

theorem customOfTree?_eq_some_iff {json : Json} {query : Query} :
  customOfTree? json = some query
    ↔ readCustomGeospatial (Doc.ofJson json) = .ok query
      ∨ (∀ other, readCustomGeospatial (Doc.ofJson json) ≠ .ok other)
        ∧ readCustomTerms (Doc.ofJson json) = .ok query
  := by
  rw [customOfTree?, List.findSome?_cons, List.findSome?_cons, List.findSome?_nil]
  cases readCustomGeospatial (Doc.ofJson json) with
  | ok found => simp [Except.toOption]
  | error cause => cases readCustomTerms (Doc.ofJson json) <;> simp [Except.toOption]

/-- A custom constraint is over shapes in one order exactly if it is in any other. -/
theorem steady_readCustom (hkeys : doc.Unrepeated) (room : ℕ) :
  doc.Steady (readCustom room)
  := by
  intro other h query hread
  obtain ⟨json, hjson, hcustom⟩ := Except.bind_eq_ok_iff.mp hread
  obtain ⟨rfl, hdepth⟩ := Doc.readTree_eq_ok_iff.mp hjson
  obtain ⟨tree, rfl, -, hsame⟩ := h.resolves hkeys json rfl
  rw [hsame] at hdepth
  have hfound : customOfTree? json = some query := by
    split at hcustom
    · next found hfound =>
      cases hcustom
      apply hfound
    · cases hcustom
  suffices hother : customOfTree? tree = some query by
    apply Except.bind_eq_ok_iff.mpr ⟨tree, Doc.readTree_eq_ok_iff.mpr ⟨rfl, hdepth⟩, _⟩
    rw [hother]
  rw [customOfTree?_eq_some_iff] at hfound ⊢
  obtain hshapes | ⟨hnone, hterms⟩ := hfound
  · left
    apply steady_readCustomGeospatial hkeys _ h query hshapes
  · right
    constructor
    · intro found hfound
      apply hnone found
      apply steady_readCustomGeospatial (h.unrepeated hkeys) _ h.symm found hfound
    · apply steady_readCustomTerms hkeys _ h query hterms

/-- Exactly one of the keys of the parameters names a type of terms, if they are an object. -/
def SingleTyped (parameters : Doc) : Prop :=
  ∀ members ending, parameters = .object members ending →
    ∃! type : TermType, type.key ∈ Doc.keys members

theorem steady_readValueConstraint (hkeys : doc.Unrepeated) (htyped : SingleTyped doc) (room : ℕ) :
  doc.Steady (readValueConstraint room)
  := by
  intro other h query hread
  cases doc with
  | object members ending =>
    obtain ⟨⟨values, others⟩, hopen, hread⟩ := Except.bind_eq_ok_iff.mp hread
    obtain ⟨terms, hterms, hquery⟩ := Except.bind_eq_ok_iff.mp hread
    have hfields : (Fields.required "constraint-name" Doc.readString
        (.required "weight" Doc.readDouble .done)).Steady (Doc.object members ending).Holds 0 :=
      ⟨fun part _ => Doc.steady_string part, fun part _ => Doc.steady_double part, trivial⟩
    obtain ⟨hunrepeated, lasts, hlasts, hopen'⟩ :=
      Fields.readOpen_of_reordered h hkeys hfields hopen
    obtain ⟨only, -, honly⟩ := htyped members ending rfl
    have hothers : ∀ type : TermType, type.key ∈ others.map Prod.fst → type = only := by
      intro type htype
      apply honly type
      obtain ⟨member, hmember, hkey⟩ := List.mem_map.mp htype
      rw [← hkey, Doc.keys, List.mem_filterMap]
      exact ⟨_, Fields.mem_of_readOpen hopen hmember, rfl⟩
    have hterms := Terms.ofMembers_of_reordered hlasts hunrepeated hothers hterms
    apply Except.bind_eq_ok_iff.mpr ⟨(values, lasts), hopen', _⟩
    apply Except.bind_eq_ok_iff.mpr ⟨terms, hterms, hquery⟩
  | _ =>
    obtain ⟨_, hopen, -⟩ := Except.bind_eq_ok_iff.mp hread
    exact absurd hopen (Doc.refuse_ne_ok _ _ _)

/-! ### Bodies -/

/-- The inner document stands in the parameters of a production in the place of a query. -/
def Holds (parameters inner : Doc) : Tag → Prop
  | .query | .and | .or => ∃ list, parameters.Holds "queries" 0 list ∧ inner ∈ list.items
  | .not | .propertiesFragment | .documentFragment | .locksFragment => parameters = inner
  | .boost =>
    parameters.Holds "matching-query" 0 inner ∨ parameters.Holds "boosting-query" 1 inner
  | _ => False

/-- The readers of inner queries are steady at what stands in their places. -/
structure Inner.Steady (inner : Inner) (tag : Tag) (parameters : Doc) : Prop where
  child : ∀ part, Holds parameters part tag → part.Steady inner.child
  query : ∀ part, Holds parameters part tag → part.Steady inner.query
  queries : ∀ list : Doc, (∀ part ∈ list.items, Holds parameters part tag) →
    list.Steady inner.queries

/-- The parameters of a production are read alike in any order. -/
theorem steady_readParameters {inner : Inner} {tag : Tag} (hkeys : doc.Unrepeated)
    (hinner : inner.Steady tag doc) (htyped : tag = .valueConstraint → SingleTyped doc)
    (room : ℕ) :
  doc.Steady (readParameters inner room tag)
  := by
  intro other h query hread
  have hrecord {types : List Type} {fields : Fields types} {name : String}
      {build : Tuple types → Query} (hfields : fields.Steady doc.Holds 0)
      (hread : build <$> fields.read .text name room doc = .ok query) :
      build <$> fields.read .text name room other = .ok query :=
    (Fields.steady_read hkeys hfields .text name room).map build other h query hread
  have hstring {key : String} {index : ℕ} (part : Doc) (_ : doc.Holds key index part) :
      part.Steady Doc.readString := Doc.steady_string part
  have hstrings {key : String} {index : ℕ} (part : Doc) (_ : doc.Holds key index part) :
      part.Steady (Doc.readStrings (room - 1)) := Doc.steady_strings part (room - 1)
  have hdouble {key : String} {index : ℕ} (part : Doc) (_ : doc.Holds key index part) :
      part.Steady Doc.readDouble := Doc.steady_double part
  have hbool {key : String} {index : ℕ} (part : Doc) (_ : doc.Holds key index part) :
      part.Steady Doc.readBool := Doc.steady_bool part
  have hoperator {key : String} {index : ℕ} (part : Doc) (_ : doc.Holds key index part) :
      part.Steady RangeOperator.read := RangeOperator.steady part
  have hvalues {key : String} {index : ℕ} (part : Doc) (hpart : doc.Holds key index part) :
      part.Steady (Doc.readValues (room - 1)) :=
    Doc.steady_values (hpart.unrepeated hkeys) (room - 1)
  have hqueries (hlist : ∀ list part, doc.Holds "queries" 0 list → part ∈ list.items →
      Holds doc part tag) (list : Doc) (hpart : doc.Holds "queries" 0 list) :
      list.Steady inner.queries := hinner.queries list fun part => hlist list part hpart
  cases tag with
  | query | or =>
    have hlist := hqueries fun list part hlist hpart => ⟨list, hlist, hpart⟩
    exact hrecord ⟨hlist, trivial⟩ hread
  | and =>
    have hlist := hqueries fun list part hlist hpart => ⟨list, hlist, hpart⟩
    exact hrecord ⟨hlist, hbool, trivial⟩ hread
  | qtext => exact (Words.steady hkeys room).map _ other h query hread
  | term => exact hrecord ⟨hstrings, hdouble, trivial⟩ hread
  | not | propertiesFragment | documentFragment | locksFragment =>
    exact (hinner.child doc rfl).map _ other h query hread
  | boost =>
    have hmatching (part : Doc) (hpart : doc.Holds "matching-query" 0 part) :
        part.Steady inner.query := hinner.query part (Or.inl hpart)
    have hboosting (part : Doc) (hpart : doc.Holds "boosting-query" 1 part) :
        part.Steady inner.query := hinner.query part (Or.inr hpart)
    exact hrecord ⟨hmatching, hboosting, trivial⟩ hread
  | directory => exact hrecord ⟨hstrings, hbool, trivial⟩ hread
  | collection | document => exact hrecord ⟨hstrings, trivial⟩ hread
  | rangeConstraint => exact hrecord ⟨hstring, hoperator, hvalues, hstrings, trivial⟩ hread
  | valueConstraint => exact steady_readValueConstraint hkeys (htyped rfl) room other h query hread
  | wordConstraint => exact hrecord ⟨hstring, hstrings, hdouble, trivial⟩ hread
  | collectionConstraint => exact hrecord ⟨hstring, hstrings, trivial⟩ hread
  | customConstraint => exact steady_readCustom hkeys room other h query hread
  | geospatialConstraint => exact steady_readGeospatial hkeys room other h query hread
  | operatorState => exact hrecord ⟨hstring, hstring, trivial⟩ hread

theorem Holds.unrepeated {parameters inner : Doc} {tag : Tag} (h : Holds parameters inner tag)
    (hkeys : parameters.Unrepeated) :
  inner.Unrepeated
  := by
  cases tag with
  | query | and | or =>
    obtain ⟨list, hlist, hinner⟩ := h
    apply (hlist.unrepeated hkeys).of_mem_items hinner
  | not | propertiesFragment | documentFragment | locksFragment =>
    obtain rfl : parameters = inner := h
    apply hkeys
  | boost =>
    obtain hmatching | hboosting := h
    · apply hmatching.unrepeated hkeys
    · apply hboosting.unrepeated hkeys
  | _ => cases h

/-! ### Queries -/

/-- The inner document stands in the outer one where the production of the outer one has a
query. -/
def Position (outer inner : Doc) : Prop :=
  ∃ (tag : Tag) (parameters : Doc), outer = .object [(.ok tag.label, parameters)] none
    ∧ Holds parameters inner tag

/-- The value constraints among the queries of a document have terms of one type each. -/
def SingleTypes (doc : Doc) : Prop :=
  ∀ parameters, Relation.ReflTransGen Position doc
    (.object [(.ok Tag.valueConstraint.label, parameters)] none) → SingleTyped parameters

theorem SingleTypes.of_position {inner : Doc} (h : SingleTypes doc) (hinner : Position doc inner) :
  SingleTypes inner
  := fun parameters hparameters => h parameters (hparameters.head hinner)

theorem eq_of_labelled_eq {tag other : Tag} {parameters last : Doc}
    (h : Doc.object [(.ok tag.label, parameters)] none = .object [(.ok other.label, last)] none) :
  tag = other ∧ parameters = last
  := by
  obtain ⟨hmember, -⟩ := List.cons.inj (Doc.object.inj h).1
  obtain ⟨hlabel, hlast⟩ := Prod.mk.inj hmember
  have htag := ofLabel?_label tag
  rw [Except.ok.inj hlabel, ofLabel?_label] at htag
  exact ⟨(Option.some.inj htag).symm, hlast⟩

theorem singleTypes_of_labelled (tag : Tag) {parameters : Doc}
    (h : ∀ inner, Holds parameters inner tag → SingleTypes inner)
    (htyped : tag = .valueConstraint → SingleTyped parameters) :
  SingleTypes (.object [(.ok tag.label, parameters)] none)
  := by
  intro last hlast
  obtain heq | ⟨inner, hinner, hlast⟩ := hlast.cases_head
  · obtain ⟨htag, rfl⟩ := eq_of_labelled_eq heq
    apply htyped htag
  · obtain ⟨other, parameters, hdoc, hholds⟩ := hinner
    obtain ⟨rfl, rfl⟩ := eq_of_labelled_eq hdoc
    apply h inner hholds last hlast

theorem steady_noRoom {α : Type} (doc : Doc) :
  doc.Steady (noRoom : Doc → Read α)
  := by
  rintro _ _ _ ⟨⟩

/-- A query is read alike in any order if the queries in it are. -/
theorem steady_readLabelled (hkeys : doc.Unrepeated) (htypes : SingleTypes doc) {inner : Inner}
    (hinner : ∀ tag parameters, doc = .object [(.ok tag.label, parameters)] none →
      inner.Steady tag parameters) (room left : ℕ) :
  doc.Steady (readLabelled room (readParameters inner left))
  := by
  apply Doc.steady_labelled
  · rintro _ _ ⟨⟩
  · rintro label tag parameters rfl hlabel
    obtain rfl : tag.label = label := by simpa using List.find?_some hlabel
    have hparameters := (Doc.unrepeatedMembers_iff.mp hkeys.2) _ List.mem_cons_self
    apply steady_readParameters hparameters (hinner tag parameters rfl)
    rintro rfl
    apply htypes parameters .refl

/-- A query is read alike in any order if its value constraints have terms of one type each. -/
theorem steady_read {room : ℕ} (hkeys : doc.Unrepeated) (htypes : SingleTypes doc) :
  doc.Steady (read room)
  := by
  induction room using Nat.strong_induction_on generalizing doc with
  | _ room ih =>
    -- What stands in the place of a query is read with less room, and is steady.
    have hpart {tag : Tag} {parameters part : Doc}
        (hdoc : doc = .object [(.ok tag.label, parameters)] none)
        (hholds : Holds parameters part tag) : part.Unrepeated ∧ SingleTypes part := by
      constructor
      · subst hdoc
        apply hholds.unrepeated
        apply (Doc.unrepeatedMembers_iff.mp hkeys.2) _ List.mem_cons_self
      · apply htypes.of_position ⟨tag, parameters, hdoc, hholds⟩
    match room with
    | 0 =>
      apply Doc.steady_labelled
      · rintro _ _ ⟨⟩
      · exact fun _ _ _ _ _ => steady_noRoom _
    | 1 =>
      apply steady_readLabelled hkeys htypes
      intro tag parameters hdoc
      constructor
      · intro part hholds
        obtain ⟨hkeys, htypes⟩ := hpart hdoc hholds
        apply ih 0 (by omega) hkeys htypes
      · exact fun part _ => steady_noRoom part
      · exact fun list _ => steady_noRoom list
    | room + 2 =>
      apply steady_readLabelled hkeys htypes
      intro tag parameters hdoc
      constructor
      · intro part hholds
        obtain ⟨hkeys, htypes⟩ := hpart hdoc hholds
        apply ih (room + 1) (by omega) hkeys htypes
      · intro part hholds
        obtain ⟨hkeys, htypes⟩ := hpart hdoc hholds
        apply ih room (by omega) hkeys htypes
      · intro list hlist
        cases room with
        | zero =>
          apply Doc.steady_list
          exact fun part _ => steady_noRoom part
        | succ room =>
          apply Doc.steady_list
          intro part hmem
          obtain ⟨hkeys, htypes⟩ := hpart hdoc (hlist part hmem)
          apply ih room (by omega) hkeys htypes

end Query

/-! ### Texts -/

/-- The order of keys does not matter: a text without repeated keys that is read as a plan is read
as the same plan in any order of its keys, and so is a text that is read as a query, if each value
constraint in it has exactly one of the keys of the types of terms. -/
theorem ofText_eq_ok_of_reordered {text other : String}
    (h : (Document.ofText text).Reordered (Document.ofText other))
    (hkeys : (Document.ofText text).root.Unrepeated) :
  (∀ plan, Plan.ofText text = .ok plan → Plan.ofText other = .ok plan)
    ∧ (Query.SingleTypes (Document.ofText text).root →
      ∀ query, Query.ofText text = .ok query → Query.ofText other = .ok query)
  := by
  constructor
  · intro plan hplan
    apply Document.read_of_reordered h (Plan.steady_read hkeys) hplan
  · intro htypes query hquery
    apply Document.read_of_reordered h (Query.steady_read hkeys htypes) hquery

/-- A plan that names its operations first. -/
def operationFirst : Json :=
  .object [("op", .string "not"),
    ("query", .object [("op", .string "qtext"), ("text", .string "a")])]

/-- The same plan, which names its operations last. -/
def operationLast : Json :=
  .object [("query", .object [("text", .string "a"), ("op", .string "qtext")]),
    ("op", .string "not")]

/-- A query whose value constraint gives its terms last. -/
def termsLast : Json :=
  .object [("not-query", .object [("value-constraint-query",
    .object [("constraint-name", .string "n"), ("weight", .number (.integer 1 (by decide))),
      ("text", .array [.string "a"])])])]

/-- The same query, whose value constraint gives its terms first. -/
def termsFirst : Json :=
  .object [("not-query", .object [("value-constraint-query",
    .object [("text", .array [.string "a"]), ("weight", .number (.integer 1 (by decide))),
      ("constraint-name", .string "n")])])]

theorem reordered_operationLast :
  (Doc.ofJson operationFirst).Reordered (Doc.ofJson operationLast)
  := by
  have hquery : (Doc.object [(.ok "op", .string (.ok "qtext")), (.ok "text", .string (.ok "a"))]
      none).Reordered (.object [(.ok "text", .string (.ok "a")), (.ok "op", .string (.ok "qtext"))]
        none) := .of_perm (.swap ..) none
  have hpairs : ∀ pair ∈ [((.ok "op" : Key), Doc.string (.ok "not"), Doc.string (.ok "not")),
      (.ok "query", _, _)], pair.2.1.Reordered pair.2.2 :=
    List.forall_mem_cons.mpr ⟨.same _, List.forall_mem_singleton.mpr hquery⟩
  exact .object hpairs (.swap ..) none

theorem reordered_termsFirst :
  (Doc.ofJson termsLast).Reordered (Doc.ofJson termsFirst)
  := by
  apply Doc.Reordered.labelled
  apply Doc.Reordered.labelled
  apply Doc.Reordered.of_perm
  exact (List.reverse_perm _).symm

theorem singleTypes_termsLast :
  Query.SingleTypes (Doc.ofJson termsLast)
  := by
  apply Query.singleTypes_of_labelled .not
  · rintro inner rfl
    apply Query.singleTypes_of_labelled .valueConstraint
    · rintro _ ⟨⟩
    · rintro - members ending ⟨⟩
      rw [Doc.keys_ofMembers]
      use .text
      constructor
      · decide
      · intro type htype
        cases type with
        | text => rfl
        | _ => exact absurd htype (by decide)
  · rintro ⟨⟩

/-- Operations and terms are read from wherever they stand. -/
theorem ofText_eq_ok_of_reversed :
  ((Document.ofText operationFirst.compact).Reordered (Document.ofText operationLast.compact)
    ∧ (Document.ofText operationFirst.compact).root.Unrepeated
    ∧ Plan.ofText operationLast.compact = .ok (.not (.qtext (.one "a"))))
  ∧ (Document.ofText termsLast.compact).Reordered (Document.ofText termsFirst.compact)
    ∧ (Document.ofText termsLast.compact).root.Unrepeated
    ∧ Query.SingleTypes (Document.ofText termsLast.compact).root
    ∧ Query.ofText termsFirst.compact
      = .ok (.not (.valueConstraint "n" (Double.ofInt 1) (.text ["a"])))
  := by
  have hfirst : (Document.ofText operationFirst.compact).Reordered
      (Document.ofText operationLast.compact) := by
    rw [Document.ofText_compact, Document.ofText_compact]
    exact ⟨reordered_operationLast, rfl⟩
  have hfirstKeys : (Document.ofText operationFirst.compact).root.Unrepeated := by
    rw [Document.ofText_compact]
    simp [operationFirst, Doc.ofJson, Doc.ofMembers, Doc.Unrepeated, Doc.UnrepeatedMembers,
      Doc.keys, Except.toOption]
  have hplan : Plan.ofText operationFirst.compact = .ok (.not (.qtext (.one "a"))) := by
    rw [Plan.ofText, Document.ofText_compact]
    rfl
  have hlast : (Document.ofText termsLast.compact).Reordered
      (Document.ofText termsFirst.compact) := by
    rw [Document.ofText_compact, Document.ofText_compact]
    exact ⟨reordered_termsFirst, rfl⟩
  have hlastKeys : (Document.ofText termsLast.compact).root.Unrepeated := by
    rw [Document.ofText_compact]
    simp [termsLast, Doc.ofJson, Doc.ofMembers, Doc.ofItems, Doc.Unrepeated,
      Doc.UnrepeatedMembers, Doc.UnrepeatedItems, Doc.keys, Except.toOption]
  have htypes : Query.SingleTypes (Document.ofText termsLast.compact).root := by
    rw [Document.ofText_compact]
    exact singleTypes_termsLast
  have hquery : Query.ofText termsLast.compact
      = .ok (.not (.valueConstraint "n" (Double.ofInt 1) (.text ["a"]))) := by
    rw [Query.ofText, Document.ofText_compact]
    rfl
  have hplans := (@ofText_eq_ok_of_reordered operationFirst.compact operationLast.compact
    hfirst hfirstKeys).1
  have hqueries := (@ofText_eq_ok_of_reordered termsLast.compact termsFirst.compact
    hlast hlastKeys).2
  exact ⟨⟨hfirst, hfirstKeys, hplans _ hplan⟩, hlast, hlastKeys, htypes, hqueries htypes _ hquery⟩

end StructuredQuery
