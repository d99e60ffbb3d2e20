import StructuredQuery.Proofs.Plan.Depth
import StructuredQuery.Proofs.Plan.Inside
import StructuredQuery.Proofs.Record

/-!
# How deep the queries of plan texts are

A plan that is read is legible and no deeper than its text.  So the text of the query that it
describes nests at most twice as many containers as the text of the plan, and one more; a plan
text of 63 containers always describes a query whose text is read again, and one of 64 need
not.
-/

namespace StructuredQuery

namespace Plan

/-! ### Arguments -/

/-- The arguments of an operation come from their parts. -/
theorem exists_of_record {types : List Type} {op : Op} {fields : Fields types}
    {arguments : Arguments} {build : Tuple types → Plan} {plan : Plan}
    (h : build <$> arguments.read op fields = .ok plan) :
  ∃ values, build values = plan ∧ fields.ComesFrom arguments.parts values
  := by
  obtain ⟨values, hread, hbuild⟩ := Except.map_eq_ok_iff.mp h
  use values, hbuild
  cases arguments with
  | members list ending => apply Fields.comesFrom_ofMembers hread
  | items list ending => apply Fields.comesFrom_ofItems hread

section

variable {α : Type} {read : Doc → Read α} {parts : List Doc} {depth : ℕ}

/-- An argument is less deep than the document that it is a part of. -/
theorem depth_lt_of_part {encode : α → Json} (hread : Doc.Bounded fullRoom read encode)
    (hparts : ∀ part ∈ parts, part.depth < depth) {value : α}
    (h : ∃ part ∈ parts, read part = .ok value) :
  (encode value).depth < depth
  := by
  obtain ⟨part, hpart, hvalue⟩ := h
  have hbound := hread hvalue
  have hdepth := hparts part hpart
  omega

/-- An argument that need not be there has no depth if it is not. -/
theorem depth_lt_of_orElse (hpos : 0 < depth) (hparts : ∀ part ∈ parts, part.depth < depth)
    {value : Value} (h : (∃ part ∈ parts, readValue part = .ok value) ∨ value = .null) :
  value.json.depth < depth
  := by
  rcases h with h | rfl
  · apply depth_lt_of_part (Doc.bounded_value fullRoom) hparts h
  · exact hpos

/-- An optional argument that is there comes from a part that is not null. -/
theorem exists_of_optional {value : α}
    (h : (∃ part ∈ parts, Doc.readOption read part = .ok (some value)) ∨ some value = none) :
  ∃ part ∈ parts, part ≠ .null ∧ read part = .ok value
  := by
  rcases h with ⟨part, hpart, hread⟩ | hnone
  · rcases Doc.exists_of_readOption hread with hnone | ⟨hnull, inner, hinner, hread⟩
    · cases hnone
    · cases hinner
      exact ⟨part, hpart, hnull, hread⟩
  · cases hnone

theorem isFinite_of_optional {weight : Option Double}
    (h : (∃ part ∈ parts, Doc.readOption Doc.readDouble part = .ok weight) ∨ weight = none) :
  ∀ given ∈ weight, given.IsFinite
  := by
  rintro given rfl
  obtain ⟨part, -, -, hread⟩ := exists_of_optional h
  apply Doc.isFinite_of_readDouble hread

end

/-! ### Plans in a tree -/

/-- The plan is legible and no deeper than `bound`. -/
structure Fits (bound : ℕ) (plan : Plan) : Prop where
  depth_le : plan.depth ≤ bound
  legible : ∀ operation ∈ plan.operations, operation.Legible

/-- An operation on no plans fits if what it gives can stand in a text. -/
theorem fits_of_leaf {plan : Plan} {bound : ℕ} (hdepth : plan.depth ≤ bound)
    (hchildren : plan.children = []) (hlegible : plan.Legible) :
  plan.Fits bound
  := by
  use hdepth
  rw [legible_operations_iff, hchildren]
  exact ⟨hlegible, by simp⟩

/-- An operation that gives no weight and no remark fits if its plans are legible. -/
theorem fits_of_children {plan : Plan} {bound : ℕ} (hdepth : plan.depth ≤ bound)
    (hweight : plan.weight? = none) (hremark : plan.remark? = none)
    (hchildren : ∀ child ∈ plan.children, ∀ operation ∈ child.operations, operation.Legible) :
  plan.Fits bound
  := by
  use hdepth
  rw [legible_operations_iff]
  exact ⟨⟨by simp [hweight], by simp [hremark]⟩, hchildren⟩

/-- The readers of inner plans give plans that fit. -/
structure Inner.Fits (inner : Inner) : Prop where
  plan : ∀ ⦃doc plan⦄, inner.plan doc = .ok plan → plan.Fits doc.depth
  plans : ∀ ⦃doc plans⦄, inner.plans doc = .ok plans →
    depthList plans ≤ doc.depth
      ∧ ∀ plan ∈ plans, ∀ operation ∈ plan.operations, operation.Legible

variable {inner : Inner} {parts : List Doc} {depth : ℕ}

theorem Inner.Fits.plans_of_part (h : inner.Fits) (hpos : 0 < depth)
    (hparts : ∀ part ∈ parts, part.depth < depth) {plans : List Plan}
    (hplans : (∃ part ∈ parts, inner.plans part = .ok plans) ∨ plans = []) :
  depthList plans < depth ∧ ∀ plan ∈ plans, ∀ operation ∈ plan.operations, operation.Legible
  := by
  rcases hplans with ⟨part, hpart, hread⟩ | rfl
  · obtain ⟨hdepth, hlegible⟩ := h.plans hread
    exact ⟨Nat.lt_of_le_of_lt hdepth (hparts part hpart), hlegible⟩
  · exact ⟨hpos, by simp⟩

theorem Inner.Fits.plan_of_part (h : inner.Fits) (hparts : ∀ part ∈ parts, part.depth < depth)
    {plan : Plan} (hplan : ∃ part ∈ parts, inner.plan part = .ok plan) :
  plan.depth < depth ∧ ∀ operation ∈ plan.operations, operation.Legible
  := by
  obtain ⟨part, hpart, hread⟩ := hplan
  obtain ⟨hdepth, hlegible⟩ := h.plan hread
  exact ⟨Nat.lt_of_le_of_lt hdepth (hparts part hpart), hlegible⟩

/-- An operation fits if the parts of the document that hold its arguments are less deep. -/
theorem fits_of_readArguments (hinner : inner.Fits) {op : Op} {arguments : Arguments}
    (hpos : 0 < depth) (hparts : ∀ part ∈ arguments.parts, part.depth < depth) {plan : Plan}
    (h : readArguments inner op arguments = .ok plan) :
  plan.Fits depth
  := by
  cases op with
  | query | and | or =>
    obtain ⟨⟨plans, _⟩, rfl, hfrom⟩ := exists_of_record h
    simp only [Fields.orElse, Fields.ComesFrom, Absent.Allows] at hfrom
    obtain ⟨hdepth, hlegible⟩ := hinner.plans_of_part hpos hparts hfrom.1
    exact fits_of_children hdepth rfl rfl hlegible
  | not | propertiesFragment | documentFragment | locksFragment =>
    obtain ⟨⟨child, _⟩, rfl, hfrom⟩ := exists_of_record h
    simp only [Fields.required, Fields.ComesFrom, Absent.Allows, or_false] at hfrom
    obtain ⟨hdepth, hlegible⟩ := hinner.plan_of_part hparts hfrom.1
    apply fits_of_children hdepth rfl rfl
    simpa [children] using hlegible
  | boost =>
    obtain ⟨⟨matching, boosting, _⟩, rfl, hfrom⟩ := exists_of_record h
    simp only [Fields.required, Fields.optional, Fields.ComesFrom, Absent.Allows, or_false]
      at hfrom
    obtain ⟨hmatching, hboosting, -⟩ := hfrom
    obtain ⟨hdepth, hlegible⟩ := hinner.plan_of_part hparts hboosting
    cases matching with
    | none =>
      apply fits_of_children hdepth rfl rfl
      simpa [children] using hlegible
    | some matching =>
      obtain ⟨part, hpart, -, hread⟩ := exists_of_optional hmatching
      obtain ⟨hmatched, hother⟩ := hinner.plan_of_part hparts ⟨part, hpart, hread⟩
      apply fits_of_children (Nat.max_lt.mpr ⟨hmatched, hdepth⟩) rfl rfl
      simp only [children, List.forall_mem_cons]
      exact ⟨hlegible, hother, by simp⟩
  | qtext =>
    obtain ⟨⟨words, _⟩, rfl, hfrom⟩ := exists_of_record h
    simp only [Fields.required, Fields.ComesFrom, Absent.Allows, or_false] at hfrom
    have hdepth := depth_lt_of_part (Words.bounded fullRoom) hparts hfrom.1
    exact fits_of_leaf hdepth rfl ⟨by simp [weight?], by simp [remark?]⟩
  | term =>
    obtain ⟨⟨text, weight, _⟩, rfl, hfrom⟩ := exists_of_record h
    simp only [Fields.required, Fields.optional, Fields.ComesFrom, Absent.Allows, or_false]
      at hfrom
    have hdepth := depth_lt_of_part (Doc.bounded_value fullRoom) hparts hfrom.1
    exact fits_of_leaf hdepth rfl ⟨isFinite_of_optional hfrom.2.1, by simp [remark?]⟩
  | directory | collection | document =>
    obtain ⟨⟨uris, _⟩, rfl, hfrom⟩ := exists_of_record h
    simp only [Fields.orElse, Fields.ComesFrom, Absent.Allows] at hfrom
    have hdepth := depth_lt_of_orElse hpos hparts hfrom.1
    exact fits_of_leaf hdepth rfl ⟨by simp [weight?], by simp [remark?]⟩
  | range =>
    obtain ⟨⟨name, operator, values, options, _⟩, rfl, hfrom⟩ := exists_of_record h
    simp only [Fields.required, Fields.optional, Fields.orElse, Fields.ComesFrom, Absent.Allows,
      or_false] at hfrom
    obtain ⟨-, -, hvalues, hoptions, -⟩ := hfrom
    have hdepth := depth_lt_of_part (Doc.bounded_value fullRoom) hparts hvalues
    have hother := depth_lt_of_orElse hpos hparts hoptions
    exact fits_of_leaf (Nat.max_lt.mpr ⟨hdepth, hother⟩) rfl ⟨by simp [weight?], by simp [remark?]⟩
  | value | word =>
    obtain ⟨⟨name, argument, weight, _⟩, rfl, hfrom⟩ := exists_of_record h
    simp only [Fields.required, Fields.optional, Fields.ComesFrom, Absent.Allows, or_false]
      at hfrom
    obtain ⟨-, hargument, hweight, -⟩ := hfrom
    have hdepth := depth_lt_of_part (Doc.bounded_value fullRoom) hparts hargument
    exact fits_of_leaf hdepth rfl ⟨isFinite_of_optional hweight, by simp [remark?]⟩
  | custom =>
    obtain ⟨⟨name, text, _⟩, rfl, hfrom⟩ := exists_of_record h
    simp only [Fields.required, Fields.ComesFrom, Absent.Allows, or_false] at hfrom
    have hdepth := depth_lt_of_part (Doc.bounded_value fullRoom) hparts hfrom.2.1
    exact fits_of_leaf hdepth rfl ⟨by simp [weight?], by simp [remark?]⟩
  | collectionConstraint | geospatial =>
    obtain ⟨⟨name, argument, _⟩, rfl, hfrom⟩ := exists_of_record h
    simp only [Fields.required, Fields.orElse, Fields.ComesFrom, Absent.Allows, or_false] at hfrom
    have hdepth := depth_lt_of_orElse hpos hparts hfrom.2.1
    exact fits_of_leaf hdepth rfl ⟨by simp [weight?], by simp [remark?]⟩
  | customGeospatial =>
    obtain ⟨⟨name, remark, shapes, _⟩, rfl, hfrom⟩ := exists_of_record h
    simp only [Fields.required, Fields.optional, Fields.orElse, Fields.ComesFrom, Absent.Allows,
      or_false] at hfrom
    obtain ⟨-, hremark, hshapes, -⟩ := hfrom
    have hdepth := depth_lt_of_orElse hpos hparts hshapes
    cases remark with
    | none => exact fits_of_leaf hdepth rfl ⟨by simp [weight?], by simp [remark?]⟩
    | some value =>
      obtain ⟨part, hpart, hnull, hread⟩ := exists_of_optional hremark
      have hother := depth_lt_of_part (Doc.bounded_value fullRoom) hparts ⟨part, hpart, hread⟩
      apply fits_of_leaf (Nat.max_lt.mpr ⟨hother, hdepth⟩) rfl
      use by simp [weight?]
      rintro remark ⟨⟩
      apply Doc.ne_null_of_readValue hnull hread
  | constraint =>
    obtain ⟨⟨kind, name, values, _⟩, rfl, hfrom⟩ := exists_of_record h
    simp only [Fields.required, Fields.optional, Fields.orElse, Fields.ComesFrom, Absent.Allows,
      or_false] at hfrom
    have hdepth := depth_lt_of_orElse hpos hparts hfrom.2.2.1
    exact fits_of_leaf hdepth rfl ⟨by simp [weight?], by simp [remark?]⟩
  | operatorState =>
    obtain ⟨⟨operator, state, _⟩, rfl, -⟩ := exists_of_record h
    exact fits_of_leaf hpos rfl ⟨by simp [weight?], by simp [remark?]⟩

/-- Plans that are read one after the other from items. -/
theorem fits_of_mapM {read : Doc → Read Plan}
    (hread : ∀ ⦃doc plan⦄, read doc = .ok plan → plan.Fits doc.depth) {items : List Doc}
    {plans : List Plan} (h : items.mapM read = .ok plans) :
  depthList plans ≤ Doc.depthItems items + 1
    ∧ ∀ plan ∈ plans, ∀ operation ∈ plan.operations, operation.Legible
  := by
  have hfits : ∀ plan ∈ plans, plan.Fits (Doc.depthItems items) := by
    intro plan hplan
    obtain ⟨item, hitem, hok⟩ := Except.exists_of_mem_mapM h hplan
    obtain ⟨hdepth, hlegible⟩ := hread hok
    exact ⟨hdepth.trans (Doc.depth_le_depthItems hitem), hlegible⟩
  exact ⟨depthList_le fun plan hplan => (hfits plan hplan).depth_le,
    fun plan hplan => (hfits plan hplan).legible⟩

/-- A list that is read holds plans that fit if the plans that are read fit. -/
theorem fits_of_readNodes {room : ℕ} {doc : Doc} {plans : List Plan}
    (hread : ∀ inner < room, ∀ {doc plan}, readNode inner doc = .ok plan → plan.Fits doc.depth)
    (h : readNodes room doc = .ok plans) :
  depthList plans ≤ doc.depth
    ∧ ∀ plan ∈ plans, ∀ operation ∈ plan.operations, operation.Legible
  := by
  obtain ⟨left, rfl, items, rfl, hitems⟩ := exists_of_readNodes h
  apply fits_of_mapM (fun doc plan => hread left left.lt_succ_self) hitems

/-- A plan that is read fits its document. -/
theorem fits_of_readNode {room : ℕ} {doc : Doc} {plan : Plan} (h : readNode room doc = .ok plan) :
  plan.Fits doc.depth
  := by
  induction room using Nat.strong_induction_on generalizing doc plan with
  | h room ih =>
    cases room with
    | zero =>
      cases doc with
      | object members ending | array items ending => cases h
      | _ => exact absurd h (Doc.refuse_ne_ok _ _ _)
    | succ room =>
      have hinner : Inner.Fits ⟨readNode room, readNodes room⟩ := by
        constructor
        · exact fun doc plan h => ih room room.lt_succ_self h
        · exact fun doc plans h => fits_of_readNodes (fun inner hinner => ih inner (by omega)) h
      cases doc with
      | object members ending =>
        obtain ⟨op, -, h⟩ := Except.bind_eq_ok_iff.mp h
        have hpos : 0 < (Doc.object members ending).depth := Nat.succ_pos _
        apply fits_of_readArguments hinner hpos _ h
        exact fun part hpart => Doc.depth_lt_object hpart
      | array items ending =>
        cases items with
        | nil => cases h
        | cons item items =>
          obtain ⟨op, -, h⟩ := Except.bind_eq_ok_iff.mp h
          have hpos : 0 < (Doc.array (item :: items) ending).depth := Nat.succ_pos _
          apply fits_of_readArguments hinner hpos _ h
          exact fun part hpart => Doc.depth_lt_array (List.mem_cons_of_mem item hpart)
      | _ => exact absurd h (Doc.refuse_ne_ok _ _ _)

/-! ### Texts -/

theorem fits_of_ofText {text : String} {plan : Plan} (h : ofText text = .ok plan) :
  plan.Fits (Document.nesting text)
  := by
  obtain ⟨hread, -⟩ := Document.read_eq_ok_iff.mp h
  obtain ⟨json, -, -, -, hread⟩ := read_eq_ok_iff.mp hread
  apply fits_of_readNode hread

/-! ### Boosts of everything -/

/-- A tree that holds the boost of everything by the plan of a tree. -/
def boostTree (boosting : Json) : Json :=
  .object [(opKey, .string Op.boost.label), ("boosting", boosting)]

/-- A tree that holds a term. -/
def termTree : Json :=
  .object [(opKey, .string Op.term.label), ("text", .null)]

theorem depth_boostTree_iterate (n : ℕ) :
  (boostTree^[n] termTree).depth = n + 1
  := by
  induction n with
  | zero => rfl
  | succ n ih =>
    rw [Function.iterate_succ_apply', boostTree, Json.depth, Json.depthMembers, Json.depthMembers,
      ih]
    simp [Json.depth, Json.depthMembers]

theorem readNode_boostTree {room : ℕ} {json : Json} {plan : Plan}
    (h : readNode room (Doc.ofJson json) = .ok plan) :
  readNode (room + 1) (Doc.ofJson (boostTree json)) = .ok (.boost none plan)
  := by
  have hop : findOp none (Doc.ofMembers [(opKey, .string Op.boost.label), ("boosting", json)])
      = .ok .boost := by rfl
  have hrest : ((Fields.required "boosting" (readNode room) .done).ofMembers
      (Doc.ofMembers [("boosting", json)]) none) = .ok (plan, ()) := by
    rw [Fields.required, Fields.ofMembers_cons json (by simp), h]
    rfl
  rw [boostTree, Doc.ofJson, readNode, hop]
  show _ <$> Fields.ofMembers _ ((.ok opKey, _) :: Doc.ofMembers [("boosting", json)]) none = _
  rw [Fields.ofMembers_cons_of_notMem (show opKey ∉ ["matching", "boosting"] by decide) rfl,
    Fields.optional,
    Fields.ofMembers_absent (by simp), hrest]
  rfl

theorem readNode_boostTree_iterate (n room : ℕ) :
  readNode (n + room + 1) (Doc.ofJson (boostTree^[n] termTree))
    = .ok ((Plan.boost none)^[n] (.term .null none))
  := by
  induction n with
  | zero => rfl
  | succ n ih =>
    rw [Function.iterate_succ_apply', Function.iterate_succ_apply', Nat.succ_add_eq_add_succ]
    apply readNode_boostTree ih

/-- Boosts for which there is room are read from their text. -/
theorem ofText_boostTree_iterate {n : ℕ} (h : n < fullRoom) :
  ofText (boostTree^[n] termTree).compact = .ok ((Plan.boost none)^[n] (.term .null none))
  := by
  rw [ofText, Document.ofText_compact, Document.read_eq_ok_iff, read_eq_ok_iff]
  refine ⟨⟨_, rfl, ?_, ?_, ?_⟩, by simp⟩
  · rw [depth_boostTree_iterate]
    apply h
  · cases n with
    | zero => exact ⟨.term, rfl⟩
    | succ n =>
      rw [Function.iterate_succ_apply']
      exact ⟨.boost, rfl⟩
  · obtain ⟨room, hroom⟩ := Nat.exists_eq_add_of_lt h
    rw [hroom]
    apply readNode_boostTree_iterate

theorem compile_boost_iterate (config : Config) (n : ℕ) :
  compile config ((Plan.boost none)^[n] (.term .null none))
    = .ok (Query.boostAll^[n] (.ofTerms [] none))
  := by
  induction n with
  | zero => rfl
  | succ n ih =>
    rw [Function.iterate_succ_apply', Function.iterate_succ_apply', compile, ih]
    rfl

theorem depth_boostAll_iterate (n : ℕ) :
  (Query.boostAll^[n] (.ofTerms [] none)).encode.depth = 2 * n + 3
  := by
  induction n with
  | zero => rfl
  | succ n ih =>
    rw [Function.iterate_succ_apply']
    show max 3 (max (Query.encode _).depth 0) + 1 + 1 = 2 * (n + 1) + 3
    rw [ih]
    omega

/-- The text of the query that a plan text describes nests at most twice as many containers, and
one more.  So it is read again if the plan text nests no more than 63 containers, whatever the
configuration; of a plan text that nests 64 it can be refused. -/
theorem nesting_toText_of_compile :
  (∀ {text : String} {plan : Plan} {config : Config} {query : Query},
    ofText text = .ok plan → compile config plan = .ok query →
      Document.nesting query.toText ≤ 2 * Document.nesting text + 1
        ∧ (Document.nesting text ≤ 63 → Query.ofText query.toText = .ok query))
  ∧ ∃ text plan, Document.nesting text = 64 ∧ ofText text = .ok plan
    ∧ ∀ config, ∃ query cause, compile config plan = .ok query
      ∧ Query.ofText query.toText = .error cause
  := by
  constructor
  · intro text plan config query hplan hquery
    obtain ⟨hdepth, hlegible⟩ := fits_of_ofText hplan
    have hsettled := settled_of_compile plan hlegible hquery
    constructor
    · rw [Query.toText, Document.nesting_compact]
      have hquery := hsettled.depth_le
      omega
    · intro hnesting
      apply hsettled.ofText_toText
      show 2 * plan.depth + 1 ≤ 127
      omega
  · use (boostTree^[63] termTree).compact, (Plan.boost none)^[63] (.term .null none)
    rw [Document.nesting_compact, depth_boostTree_iterate]
    use rfl, ofText_boostTree_iterate (by decide)
    intro config
    have hdeep : fullRoom < (Query.boostAll^[63] (.ofTerms [] none)).encode.depth := by
      rw [depth_boostAll_iterate]
      decide
    obtain ⟨cause, hcause⟩ := Query.exists_ofText_toText_eq_error hdeep
    exact ⟨_, cause, compile_boost_iterate config 63, hcause⟩

/-- A plan text of 63 containers describes a query whose text just can be read. -/
theorem nesting_toText_of_compile_boost :
  Document.nesting (boostTree^[62] termTree).compact = 63
    ∧ Query.ofText (Query.boostAll^[62] (.ofTerms [] none)).toText
      = .ok (Query.boostAll^[62] (.ofTerms [] none))
  := by
  have hnesting : Document.nesting (boostTree^[62] termTree).compact = 63 := by
    rw [Document.nesting_compact, depth_boostTree_iterate]
  use hnesting
  have hbound := nesting_toText_of_compile.1 (ofText_boostTree_iterate (n := 62) (by decide))
    (compile_boost_iterate .strict 62)
  apply hbound.2
  rw [hnesting]

end Plan

end StructuredQuery
