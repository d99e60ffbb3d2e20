import StructuredQuery.Proofs.Plan.Grammar
import StructuredQuery.Proofs.Record.Order

/-!
# Plans in any order

The arguments of a plan and the name of its operation may come in any order, and so may those of
the plans in it: a text without repeated keys is read as the same plan in every order.
-/

namespace StructuredQuery

namespace Plan

variable {op : Op} {arguments others : Arguments}

/-! ### Arguments -/

/-- The object or array of the arguments. -/
def Arguments.doc : Arguments → Doc
  | .members list ending => .object list ending
  | .items list ending => .array list ending

theorem Arguments.read_of_reordered {types : List Type} {fields : Fields types}
    (h : arguments.doc.Reordered others.doc) (hkeys : arguments.doc.Unrepeated)
    (hfields : fields.Steady arguments.doc.Holds 0) {values : Tuple types}
    (hread : arguments.read op fields = .ok values) :
  others.read op fields = .ok values
  := by
  cases arguments with
  | members list ending =>
    cases others with
    | members last ending' => apply Fields.ofMembers_of_reordered h hkeys.1 hfields hread
    | items last ending' =>
      obtain ⟨_, hother⟩ := h.exists_object
      cases hother
  | items list ending =>
    cases others with
    | items last ending' => apply Fields.ofItems_of_reordered h hfields hread
    | members last ending' =>
      obtain ⟨_, -, hother, -⟩ := h.of_array
      cases hother

/-- The readers of inner plans are steady at the parts of the document. -/
structure Inner.Steady (inner : Inner) (doc : Doc) : Prop where
  plan : ∀ key index part, doc.Holds key index part → part.Steady inner.plan
  plans : ∀ key index part, doc.Holds key index part → part.Steady inner.plans

/-- The arguments of an operation are read alike in any order. -/
theorem readArguments_of_reordered {inner : Inner} (h : arguments.doc.Reordered others.doc)
    (hkeys : arguments.doc.Unrepeated) (hinner : inner.Steady arguments.doc) {plan : Plan}
    (hread : readArguments inner op arguments = .ok plan) :
  readArguments inner op others = .ok plan
  := by
  have hrecord {types : List Type} {fields : Fields types} {build : Tuple types → Plan}
      (hfields : fields.Steady arguments.doc.Holds 0)
      (hread : build <$> arguments.read op fields = .ok plan) :
      build <$> others.read op fields = .ok plan := by
    obtain ⟨values, hvalues, rfl⟩ := Except.map_eq_ok_iff.mp hread
    rw [Arguments.read_of_reordered h hkeys hfields hvalues]
    rfl
  have hplan {key : String} {index : ℕ} (part : Doc) (hpart : arguments.doc.Holds key index part) :
      part.Steady inner.plan := hinner.plan key index part hpart
  have hplans {key : String} {index : ℕ} (part : Doc)
      (hpart : arguments.doc.Holds key index part) : part.Steady inner.plans :=
    hinner.plans key index part hpart
  have hvalue {key : String} {index : ℕ} (part : Doc)
      (hpart : arguments.doc.Holds key index part) : part.Steady readValue :=
    Doc.steady_value (hpart.unrepeated hkeys) fullRoom
  have hwords {key : String} {index : ℕ} (part : Doc)
      (hpart : arguments.doc.Holds key index part) : part.Steady (Words.read fullRoom) :=
    Words.steady (hpart.unrepeated hkeys) fullRoom
  have hoption {α : Type} {read : Doc → Read α} {key : String} {index : ℕ}
      (hpart : ∀ part, arguments.doc.Holds key index part → part.Steady read) (part : Doc)
      (hholds : arguments.doc.Holds key index part) : part.Steady (Doc.readOption read) :=
    Doc.steady_option (hpart part hholds)
  have hstring {key : String} {index : ℕ} (part : Doc) (_ : arguments.doc.Holds key index part) :
      part.Steady Doc.readString := Doc.steady_string part
  have hdouble {key : String} {index : ℕ} (part : Doc) (_ : arguments.doc.Holds key index part) :
      part.Steady Doc.readDouble := Doc.steady_double part
  have hoperator {key : String} {index : ℕ} (part : Doc)
      (_ : arguments.doc.Holds key index part) : part.Steady RangeOperator.read :=
    RangeOperator.steady part
  cases op with
  | query | and | or => exact hrecord ⟨hplans, trivial⟩ hread
  | not | propertiesFragment | documentFragment | locksFragment =>
    exact hrecord ⟨hplan, trivial⟩ hread
  | boost => exact hrecord ⟨hoption hplan, hplan, trivial⟩ hread
  | qtext => exact hrecord ⟨hwords, trivial⟩ hread
  | term => exact hrecord ⟨hvalue, hoption hdouble, trivial⟩ hread
  | directory | collection | document => exact hrecord ⟨hvalue, trivial⟩ hread
  | range =>
    exact hrecord ⟨hstring, hoption hoperator, hvalue, hvalue, trivial⟩ hread
  | value | word => exact hrecord ⟨hstring, hvalue, hoption hdouble, trivial⟩ hread
  | collectionConstraint | custom | geospatial => exact hrecord ⟨hstring, hvalue, trivial⟩ hread
  | customGeospatial => exact hrecord ⟨hstring, hoption hvalue, hvalue, trivial⟩ hread
  | constraint => exact hrecord ⟨hoption hstring, hstring, hvalue, trivial⟩ hread
  | operatorState => exact hrecord ⟨hstring, hstring, trivial⟩ hread

/-! ### The operation -/

section

variable {members lasts : List (String × Json)}

/-- What is no container stands under its key in any order. -/
theorem mem_of_reordered
    (h : (Doc.ofJson (.object members)).Reordered (Doc.ofJson (.object lasts))) {key : String}
    {json : Json} (hjson : (key, json) ∈ members) (hdepth : json.depth = 0) :
  (key, json) ∈ lasts
  := by
  obtain ⟨tree, hmember, hsame⟩ := h.exists_tree hjson
  suffices htree : Doc.ofJson tree = Doc.ofJson json by
    rwa [← Doc.ofJson_injective htree]
  generalize Doc.ofJson tree = moved at hsame
  cases json with
  | array items | object members => cases hdepth
  | _ =>
    cases hsame
    rfl

theorem Op.steady_readAny (doc : Doc) :
  doc.Steady readAny
  := by
  apply Doc.steady_of_scalar
  · exact fun _ _ => Doc.refuse_ne_ok _ _
  · exact fun _ _ => Doc.refuse_ne_ok _ _

theorem depth_of_readAny {json : Json} {op : Op} (h : Op.readAny (Doc.ofJson json) = .ok op) :
  json.depth = 0
  := by
  obtain rfl | ⟨number, rfl⟩ := Op.eq_of_readAny h <;> rfl

theorem mem_of_opMembers {json : Json} (h : opMembers members = [json]) :
  (opKey, json) ∈ members
  := by
  have hmem : json ∈ opMembers members := by rw [h, List.mem_singleton]
  obtain ⟨member, hfilter, rfl⟩ := List.mem_map.mp hmem
  obtain ⟨hmember, hkey⟩ := List.mem_filter.mp hfilter
  rwa [← of_decide_eq_true hkey]

/-- The operation is found wherever it stands. -/
theorem findOp_of_reordered
    (h : (Doc.ofJson (.object members)).Reordered (Doc.ofJson (.object lasts)))
    (hkeys : (Doc.ofJson (.object members)).Unrepeated) {op : Op}
    (hop : findOp none (Doc.ofMembers members) = .ok op) :
  findOp none (Doc.ofMembers lasts) = .ok op
  := by
  obtain ⟨-, ⟨⟩⟩ | ⟨-, json, hjson, hread⟩ := opMembers_of_findOp hop
  have hmember := mem_of_opMembers hjson
  have hlasts := (h.unrepeated hkeys).1
  rw [Doc.keys_ofMembers] at hlasts
  rw [findOp_eq_readAny hlasts (mem_of_reordered h hmember (depth_of_readAny hread))]
  apply hread

end

/-! ### Plans -/

theorem Inner.steady {room : ℕ} {json : Json} (hkeys : (Doc.ofJson json).Unrepeated)
    (h : ∀ inner, (Doc.ofJson inner).Unrepeated →
      (Doc.ofJson inner).Steady (readNode room) ∧ (Doc.ofJson inner).Steady (readNodes room)) :
  Inner.Steady ⟨readNode room, readNodes room⟩ (Doc.ofJson json)
  := by
  constructor
  · intro key index part hpart
    obtain ⟨inner, rfl⟩ := hpart.exists_json
    apply (h inner (hpart.unrepeated hkeys)).1
  · intro key index part hpart
    obtain ⟨inner, rfl⟩ := hpart.exists_json
    apply (h inner (hpart.unrepeated hkeys)).2

/-- A plan inside a tree is read alike in any order, and so is a list of plans. -/
theorem steady_readNode {room : ℕ} {json : Json} (hkeys : (Doc.ofJson json).Unrepeated) :
  (Doc.ofJson json).Steady (readNode room) ∧ (Doc.ofJson json).Steady (readNodes room)
  := by
  induction room generalizing json with
  | zero =>
    constructor
    · intro other h plan hread
      cases json with
      | array items | object members => cases hread
      | _ => exact absurd hread (Doc.refuse_ne_ok _ _ _)
    · intro other h plans hread
      exact absurd (Doc.exists_of_readList hread).1 (Nat.lt_irrefl 0)
  | succ room ih =>
    constructor
    · intro other h plan hread
      cases json with
      | object members =>
        obtain ⟨tree, rfl, -⟩ := h.resolves hkeys _ rfl
        cases tree with
        | object lasts =>
          obtain ⟨op, hop, hread⟩ := Except.bind_eq_ok_iff.mp hread
          have harguments : (Arguments.members (Doc.ofMembers members) none).doc.Reordered
              (Arguments.members (Doc.ofMembers lasts) none).doc := h
          apply Except.bind_eq_ok_iff.mpr ⟨op, findOp_of_reordered h hkeys hop, _⟩
          apply readArguments_of_reordered harguments hkeys (Inner.steady hkeys fun _ => ih) hread
        | _ =>
          obtain ⟨_, hother⟩ := h.exists_object
          cases hother
      | array items =>
        cases items with
        | nil => cases hread
        | cons item items =>
          obtain ⟨op, hop, hread⟩ := Except.bind_eq_ok_iff.mp hread
          obtain ⟨moved, lasts, rfl, hitem, hitems⟩ := h.of_array_cons
          have harguments : (Arguments.items (Doc.ofItems items) none).doc.Reordered
              (Arguments.items lasts none).doc := hitems
          have hkeys' : (Doc.ofJson (.array items)).Unrepeated := hkeys.2
          apply Except.bind_eq_ok_iff.mpr ⟨op, Op.steady_readAny _ _ hitem op hop, _⟩
          apply readArguments_of_reordered harguments hkeys' (Inner.steady hkeys' fun _ => ih) hread
      | _ => exact absurd hread (Doc.refuse_ne_ok _ _ _)
    · apply Doc.steady_list
      intro part hpart
      have hunrepeated := hkeys.of_mem_items hpart
      cases json with
      | array items =>
        have hitem : part ∈ Doc.ofItems items := hpart
        rw [Doc.ofItems_eq_map] at hitem
        obtain ⟨inner, -, rfl⟩ := List.mem_map.mp hitem
        apply (ih hunrepeated).1
      | _ => cases hpart

/-- A tree names its operation in any order. -/
theorem namesOp_of_reordered {json tree : Json} (h : (Doc.ofJson json).Reordered (Doc.ofJson tree))
    (hkeys : (Doc.ofJson json).Unrepeated) (hop : NamesOp json) :
  NamesOp tree
  := by
  cases json with
  | object members =>
    cases tree with
    | object lasts =>
      obtain ⟨op, hop⟩ := hop
      have hlasts := (h.unrepeated hkeys).1
      rw [Doc.keys_ofMembers] at hlasts
      apply namesOp_of_mem hlasts (mem_of_reordered h (mem_of_opMembers hop) rfl)
    | _ =>
      obtain ⟨_, hother⟩ := h.exists_object
      cases hother
  | array items =>
    obtain ⟨op, hop⟩ := hop
    obtain ⟨rest, rfl⟩ := List.head?_eq_some_iff.mp hop
    obtain ⟨moved, lasts, hother, hitem, -⟩ := h.of_array_cons
    cases hitem
    cases tree with
    | array items =>
      cases items with
      | nil => cases (Doc.array.inj hother).1
      | cons item items =>
        have hhead := (List.cons.inj (Doc.array.inj hother).1).1
        use op
        rw [List.head?_cons, Doc.ofJson_injective (hhead : Doc.ofJson item = Doc.ofJson (.string _))]
    | _ => cases hother
  | _ => cases hop

/-- A plan is read alike in any order. -/
theorem steady_read {doc : Doc} (hkeys : doc.Unrepeated) :
  doc.Steady read
  := by
  intro other h plan hread
  obtain ⟨json, rfl, hdepth, hop, hnode⟩ := read_eq_ok_iff.mp hread
  obtain ⟨tree, rfl, -, hsame⟩ := h.resolves hkeys json rfl
  rw [hsame] at hdepth
  have hnode := (steady_readNode hkeys).1 _ h plan hnode
  exact read_eq_ok_iff.mpr ⟨tree, rfl, hdepth, namesOp_of_reordered h hkeys hop, hnode⟩

end Plan

end StructuredQuery
