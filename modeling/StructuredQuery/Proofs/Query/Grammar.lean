import StructuredQuery.Proofs.Json.Keys
import StructuredQuery.Proofs.Plan.Depth
import StructuredQuery.Proofs.Plan.Regular
import StructuredQuery.Proofs.Query.RoundTrip

/-!
# The grammar of queries on the wire

`Tag.contents` is the grammar: for each production the keys of its parameters and what may
stand under them.  A node whose parts are filled in as the constructors with defaults do it is
written by the grammar, around the forms of its children.
-/

namespace StructuredQuery

/-- What stands under the key of a parameter. -/
inductive Form where
  /-- A string. -/
  | string
  /-- A list of strings. -/
  | strings
  /-- Any value. -/
  | value
  /-- A list of values. -/
  | values
  /-- A number that is not zero, or null. -/
  | weight
  /-- The label of an operator. -/
  | operator
  /-- This truth value. -/
  | flag (truth : Bool)
  /-- The list of all children. -/
  | queries
  /-- The child at a position. -/
  | query (index : ℕ)

/-- What stands under the name of a production. -/
inductive Contents where
  /-- The only child itself. -/
  | query
  /-- A string or a list of strings. -/
  | words
  /-- An object with just the keys of one of these lists of parameters. -/
  | parameters (alternatives : List (List (String × Form)))

/-- The parameters that hold shapes. -/
def shapeForms : List (String × Form) :=
  [("point", .values), ("box", .values), ("circle", .values), ("polygon", .values)]

/-- The grammar of queries. -/
def Tag.contents : Tag → Contents
  | query | or => .parameters [[("queries", .queries)]]
  | qtext => .words
  | term => .parameters [[("text", .strings), ("weight", .weight)]]
  | and => .parameters [[("queries", .queries), ("ordered", .flag false)]]
  | not | propertiesFragment | documentFragment | locksFragment => .query
  | boost => .parameters [[("matching-query", .query 0), ("boosting-query", .query 1)]]
  | directory => .parameters [[("uri", .strings), ("infinite", .flag true)]]
  | collection | document => .parameters [[("uri", .strings)]]
  | rangeConstraint =>
    .parameters [[("constraint-name", .string), ("range-operator", .operator),
      ("value", .values), ("range-option", .strings)]]
  | valueConstraint =>
    .parameters <| ["text", "number", "boolean", "null"].map fun key =>
      [("constraint-name", .string), ("weight", .weight), (key, .values)]
  | wordConstraint =>
    .parameters [[("constraint-name", .string), ("text", .strings), ("weight", .weight)]]
  | collectionConstraint => .parameters [[("constraint-name", .string), ("uri", .strings)]]
  | customConstraint =>
    .parameters [[("constraint-name", .string), ("text", .strings)],
      ("constraint-name", .string) :: shapeForms,
      ("constraint-name", .string) :: ("annotation", .value) :: shapeForms]
  | geospatialConstraint => .parameters [("constraint-name", .string) :: shapeForms]
  | operatorState => .parameters [[("operator-name", .string), ("state-name", .string)]]

/-- The tree has the form; the children are those of the node. -/
def Form.Holds (children : List Json) (json : Json) : Form → Prop
  | string => ∃ text, json = .string text
  | strings => ∃ texts : List String, json = .array (texts.map .string)
  | value => True
  | values => ∃ items, json = .array items
  | weight => json = .null ∨ ∃ number, json = .number number ∧ number.isZero = false
  | operator => json ∈ ["LT", "LE", "GT", "GE", "EQ", "NE"].map Json.string
  | flag truth => json = .bool truth
  | queries => json = .array children
  | query index => children[index]? = some json

/-- The tree has the contents; the children are those of the node. -/
def Contents.Hold (children : List Json) (body : Json) : Contents → Prop
  | query => children = [body]
  | words => (∃ text, body = .string text)
    ∨ ∃ texts : List String, body = .array (texts.map .string)
  | parameters alternatives => ∃ forms ∈ alternatives, (forms.map Prod.fst).Nodup
    ∧ ∃ members, body = .object members
      ∧ List.Forall₂ (fun form member => member.1 = form.1 ∧ form.2.Holds children member.2)
        forms members

/-- The tree is an object whose only key is that of the production, and stands for the
production over the children. -/
def Tag.Produces (tag : Tag) (children : List Json) (json : Json) : Prop :=
  ∃ body, json = .object [(tag.label, body)] ∧ tag.contents.Hold children body

/-- What stands under a key of the parameters. -/
def Json.parameter? (key : String) : Json → Option Json
  | .object [(_, .object members)] => members.lookup key
  | _ => none

namespace Query

/-- The parts of one node are filled in from this weight and this remark, if it has parts for
them, and else none was given. -/
def FilledIn (weight : Option Double) (remark : Option Value) : Query → Prop
  | term _ given | valueConstraint _ given _ | wordConstraint _ _ given =>
    given = weightOrOne weight ∧ remark = none
  | customGeospatialConstraint _ given _ => weight = none ∧ given = remark
  | and _ ordered => ordered = false ∧ weight = none ∧ remark = none
  | directory _ infinite => infinite = true ∧ weight = none ∧ remark = none
  | _ => weight = none ∧ remark = none

/-- The node is written by the grammar with its name for the only key, its weight is null just if
the one that was given is infinite, and it has a remark just if one was given. -/
structure Grammatical (weight : Option Double) (remark : Option Value) (query : Query) : Prop where
  named : ∃ body, query.encode = .object [(query.label, body)]
  produces : query.tag.Produces (query.children.map encode) query.encode
  weight : query.encode.parameter? "weight" = some .null
    ↔ ∃ negative, weight = some (.infinite negative)
  remark : query.encode.parameter? "annotation" = remark.map Value.json

/-! ### Weights -/

theorem holds_weight {weight : Double} (h : weight.IsWeight) (children : List Json) :
  Form.weight.Holds children (.ofDouble weight)
  := by
  rw [Form.Holds, Json.ofDouble]
  split
  · exact Or.inr ⟨_, rfl, h.1⟩
  · exact Or.inl rfl

/-- Only an infinite weight is written as null. -/
theorem ofDouble_weightOrOne_eq_null_iff {weight : Option Double} :
  Json.ofDouble (weightOrOne weight) = .null ↔ ∃ negative, weight = some (.infinite negative)
  := by
  rw [Json.ofDouble_eq_null_iff]
  constructor
  · intro h
    cases weight with
    | none => exact absurd Double.isFinite_one h
    | some weight =>
      cases weight with
      | finite negative significand exponent canonical =>
        apply absurd (Double.isFinite_weightOrOne _) h
        rintro _ ⟨⟩
        trivial
      | infinite negative => exact ⟨negative, rfl⟩
      | nan => exact absurd Double.isFinite_one h
  · rintro ⟨negative, rfl⟩
    exact id

/-! ### Nodes -/

/-- The key of the production is the name of the query. -/
theorem label_tag (query : Query) :
  query.tag.label = query.label
  := by
  cases query <;> rfl

/-- The only key of a query is its name. -/
theorem exists_encode_eq_label (query : Query) :
  ∃ body, query.encode = .object [(query.label, body)]
  := by
  obtain ⟨body, hencode⟩ := exists_encode_eq query
  use body
  rw [hencode, Tag.wrap, label_tag]

/-- A production whose parameters are an object is written by the grammar if each of them is. -/
theorem produces_parameters {tag : Tag} {children : List Json} {members : List (String × Json)}
    {alternatives : List (List (String × Form))} {forms : List (String × Form)}
    (hcontents : tag.contents = .parameters alternatives) (hforms : forms ∈ alternatives)
    (hkeys : (forms.map Prod.fst).Nodup)
    (hmembers : List.Forall₂
      (fun form member => member.1 = form.1 ∧ form.2.Holds children member.2) forms members) :
  tag.Produces children (tag.wrap (.object members))
  := by
  use .object members, rfl
  rw [hcontents]
  exact ⟨forms, hforms, hkeys, members, rfl, hmembers⟩

theorem holds_shapes (shapes : ShapeLists) (children : List Json) :
  List.Forall₂ (fun form member => member.1 = form.1 ∧ form.2.Holds children member.2)
    shapeForms shapes.encodeMembers
  := .cons ⟨rfl, _, rfl⟩ (.cons ⟨rfl, _, rfl⟩ (.cons ⟨rfl, _, rfl⟩ (.cons ⟨rfl, _, rfl⟩ .nil)))

theorem produces_of_filledIn {weight : Option Double} {remark : Option Value} {query : Query}
    (h : query.FilledIn weight remark) :
  query.tag.Produces (query.children.map encode) query.encode
  := by
  have hweight := holds_weight (Double.isWeight_weightOrOne weight) []
  have hlist (queries : List Query) :
      Json.array (encodeList queries) = .array (queries.map encode) :=
    congrArg Json.array (encodeList_eq_map queries)
  cases query with
  | query queries | or queries =>
    exact produces_parameters rfl List.mem_cons_self (by decide) (.cons ⟨rfl, hlist queries⟩ .nil)
  | and queries ordered =>
    obtain ⟨rfl, -⟩ := h
    exact produces_parameters rfl List.mem_cons_self (by decide)
      (.cons ⟨rfl, hlist queries⟩ (.cons ⟨rfl, rfl⟩ .nil))
  | qtext words =>
    refine ⟨_, rfl, ?_⟩
    cases words with
    | one text => exact Or.inl ⟨text, rfl⟩
    | many texts => exact Or.inr ⟨texts, rfl⟩
  | not child | propertiesFragment child | documentFragment child | locksFragment child =>
    exact ⟨_, rfl, rfl⟩
  | boost matching boosting =>
    exact produces_parameters rfl List.mem_cons_self (by decide)
      (.cons ⟨rfl, rfl⟩ (.cons ⟨rfl, rfl⟩ .nil))
  | term text given =>
    obtain ⟨rfl, -⟩ := h
    exact produces_parameters rfl List.mem_cons_self (by decide)
      (.cons ⟨rfl, text, rfl⟩ (.cons ⟨rfl, hweight⟩ .nil))
  | directory uris infinite =>
    obtain ⟨rfl, -⟩ := h
    exact produces_parameters rfl List.mem_cons_self (by decide)
      (.cons ⟨rfl, uris, rfl⟩ (.cons ⟨rfl, rfl⟩ .nil))
  | collection uris | document uris =>
    exact produces_parameters rfl List.mem_cons_self (by decide) (.cons ⟨rfl, uris, rfl⟩ .nil)
  | rangeConstraint name operator values options =>
    have hoperator : Form.operator.Holds [] (.string operator.label) := by
      apply List.mem_map_of_mem
      cases operator <;> decide
    exact produces_parameters rfl List.mem_cons_self (by decide) (.cons ⟨rfl, name, rfl⟩
      (.cons ⟨rfl, hoperator⟩ (.cons ⟨rfl, _, rfl⟩ (.cons ⟨rfl, options, rfl⟩ .nil))))
  | valueConstraint name given terms =>
    obtain ⟨rfl, -⟩ := h
    obtain ⟨type, values⟩ := terms
    have hkey : type.key ∈ ["text", "number", "boolean", "null"] := by
      cases type <;> decide
    have hkeys : ["constraint-name", "weight", type.key].Nodup := by
      cases type <;> decide
    exact produces_parameters rfl (List.mem_map_of_mem hkey) hkeys (.cons ⟨rfl, name, rfl⟩
      (.cons ⟨rfl, hweight⟩ (.cons ⟨rfl, _, rfl⟩ .nil)))
  | wordConstraint name text given =>
    obtain ⟨rfl, -⟩ := h
    exact produces_parameters rfl List.mem_cons_self (by decide) (.cons ⟨rfl, name, rfl⟩
      (.cons ⟨rfl, text, rfl⟩ (.cons ⟨rfl, hweight⟩ .nil)))
  | collectionConstraint name texts | customConstraint name texts =>
    exact produces_parameters rfl List.mem_cons_self (by decide) (.cons ⟨rfl, name, rfl⟩
      (.cons ⟨rfl, texts, rfl⟩ .nil))
  | customGeospatialConstraint name remark shapes =>
    cases remark with
    | none =>
      exact produces_parameters rfl (List.mem_cons_of_mem _ List.mem_cons_self) (by decide)
        (.cons ⟨rfl, name, rfl⟩ (holds_shapes shapes _))
    | some remark =>
      exact produces_parameters rfl
        (List.mem_cons_of_mem _ (List.mem_cons_of_mem _ List.mem_cons_self)) (by decide)
        (.cons ⟨rfl, name, rfl⟩ (.cons ⟨rfl, trivial⟩ (holds_shapes shapes _)))
  | geospatialConstraint name shapes =>
    exact produces_parameters rfl List.mem_cons_self (by decide)
      (.cons ⟨rfl, name, rfl⟩ (holds_shapes shapes _))
  | operatorState operator state =>
    exact produces_parameters rfl List.mem_cons_self (by decide)
      (.cons ⟨rfl, operator, rfl⟩ (.cons ⟨rfl, state, rfl⟩ .nil))

/-- A wrapper has the name of the child for its only key. -/
theorem parameter?_wrap_encode (tag : Tag) (child : Query) {key : String}
    (h : ∀ tag : Tag, tag.label ≠ key) :
  (tag.wrap child.encode).parameter? key = none
  := by
  obtain ⟨parameters, hencode⟩ := exists_encode_eq child
  rw [hencode]
  apply Json.lookup_cons_of_ne (h child.tag)

/-- What stands in the parameters under the keys of a weight and a remark. -/
theorem parameter?_of_filledIn {weight : Option Double} {remark : Option Value} {query : Query}
    (h : query.FilledIn weight remark) :
  (query.encode.parameter? "weight" = some .null
    ↔ ∃ negative, weight = some (.infinite negative))
  ∧ query.encode.parameter? "annotation" = remark.map Value.json
  := by
  have hnone {json : Json} (hweight : json.parameter? "weight" = none)
      (hremark : json.parameter? "annotation" = none) :
      (json.parameter? "weight" = some .null
        ↔ ∃ negative, (none : Option Double) = some (.infinite negative))
      ∧ json.parameter? "annotation" = (none : Option Value).map Value.json := by
    rw [hweight, hremark]
    simp
  cases query with
  | not child | propertiesFragment child | documentFragment child | locksFragment child =>
    obtain ⟨rfl, rfl⟩ := h
    apply hnone
    · exact parameter?_wrap_encode _ child fun tag => by cases tag <;> decide
    · exact parameter?_wrap_encode _ child fun tag => by cases tag <;> decide
  | qtext words =>
    obtain ⟨rfl, rfl⟩ := h
    cases words <;> exact hnone rfl rfl
  | term text given | wordConstraint name text given =>
    obtain ⟨rfl, rfl⟩ := h
    rw [← ofDouble_weightOrOne_eq_null_iff]
    simp [encode, Tag.wrap, Json.parameter?, List.lookup_cons]
  | valueConstraint name given terms =>
    obtain ⟨rfl, rfl⟩ := h
    obtain ⟨type, values⟩ := terms
    rw [← ofDouble_weightOrOne_eq_null_iff]
    cases type <;>
      simp [encode, Tag.wrap, Json.parameter?, List.lookup_cons, Terms.encodeMember, TermType.key]
  | customGeospatialConstraint name given shapes =>
    obtain ⟨rfl, rfl⟩ := h
    cases given with
    | none => exact hnone rfl rfl
    | some given =>
      simp [encode, Tag.wrap, Json.parameter?, List.lookup_cons, ShapeLists.encodeMembers]
  | and | directory =>
    obtain ⟨-, rfl, rfl⟩ := h
    exact hnone rfl rfl
  | _ =>
    obtain ⟨rfl, rfl⟩ := h
    exact hnone rfl rfl

theorem grammatical_of_filledIn {weight : Option Double} {remark : Option Value} {query : Query}
    (h : query.FilledIn weight remark) :
  query.Grammatical weight remark
  := by
  obtain ⟨hweight, hremark⟩ := parameter?_of_filledIn h
  exact ⟨exists_encode_eq_label query, produces_of_filledIn h, hweight, hremark⟩

end Query

end StructuredQuery
