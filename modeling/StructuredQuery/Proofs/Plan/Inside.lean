import Mathlib.Logic.Relation
import StructuredQuery.Proofs.Plan.Outer
import StructuredQuery.Proofs.Record.Agreement
import StructuredQuery.Proofs.Record.Success

/-!
# Plans inside trees

What plan a tree holds does not depend on the room that is left, if only it is enough.  And a
tree holds a plan only if all trees hold one that stand in it in the places of plans.
-/

namespace StructuredQuery

namespace Plan

/-! ### Room -/

theorem Arguments.read_eq {types : List Type} {arguments : Arguments} {fields others : Fields types}
    (h : fields.Agree arguments.parts others) (op : Op) :
  arguments.read op fields = arguments.read op others
  := by
  cases arguments with
  | members list ending => apply h.ofMembers_eq
  | items list ending => apply h.ofItems_eq

/-- The readers of inner plans do the same on the parts. -/
structure Inner.Agree (parts : List Doc) (inner other : Inner) : Prop where
  plan : ∀ part ∈ parts, inner.plan part = other.plan part
  plans : ∀ part ∈ parts, inner.plans part = other.plans part

/-- The arguments of an operation are read alike with readers that agree on them. -/
theorem readArguments_eq {arguments : Arguments} {inner other : Inner}
    (h : inner.Agree arguments.parts other) (op : Op) :
  readArguments inner op arguments = readArguments other op arguments
  := by
  have hrecord {types : List Type} {fields others : Fields types} (build : Tuple types → Plan)
      (hfields : fields.Agree arguments.parts others) :
      build <$> arguments.read op fields = build <$> arguments.read op others := by
    rw [Arguments.read_eq hfields]
  have hoption : ∀ part ∈ arguments.parts,
      Doc.readOption inner.plan part = Doc.readOption other.plan part := by
    intro part hpart
    cases part <;> first | rfl | simp only [Doc.readOption, h.plan _ hpart]
  cases op with
  | query | and | or => exact hrecord _ (.field h.plans .done)
  | not | propertiesFragment | documentFragment | locksFragment =>
    exact hrecord _ (.field h.plan .done)
  | boost => exact hrecord _ (.field hoption (.field h.plan .done))
  | _ => rfl

/-- One more container than is needed does not change what is read. -/
theorem readNode_succ {room : ℕ} {doc : Doc} (h : doc.depth ≤ room) :
  readNode (room + 1) doc = readNode room doc ∧ readNodes (room + 1) doc = readNodes room doc
  := by
  induction room generalizing doc with
  | zero =>
    cases doc with
    | array items ending | object members ending => cases h
    | _ => exact ⟨rfl, rfl⟩
  | succ room ih =>
    have hroom {part : Doc} (hpart : part.depth < doc.depth) : part.depth ≤ room :=
      Nat.le_of_lt_succ (hpart.trans_le h)
    have harguments {arguments : Arguments}
        (hparts : ∀ part ∈ arguments.parts, part.depth < doc.depth) (op : Op) :
        readArguments ⟨readNode (room + 1), readNodes (room + 1)⟩ op arguments
          = readArguments ⟨readNode room, readNodes room⟩ op arguments := by
      apply readArguments_eq
      constructor
      · exact fun part hpart => (ih (hroom (hparts part hpart))).1
      · exact fun part hpart => (ih (hroom (hparts part hpart))).2
    cases doc with
    | array items ending =>
      constructor
      · cases items with
        | nil => rfl
        | cons item items =>
          have hitems := harguments fun part
            (hpart : part ∈ (Arguments.items items ending).parts) =>
              Doc.depth_lt_array (List.mem_cons_of_mem item hpart)
          simp only [readNode, hitems]
      · have hitems : items.mapM (readNode (room + 1)) = items.mapM (readNode room) :=
          Except.mapM_congr fun item hitem => (ih (hroom (Doc.depth_lt_array hitem))).1
        simp only [readNodes, Doc.readList, hitems, Nat.succ_ne_zero, if_false]
    | object members ending =>
      constructor
      · have hmembers := harguments fun part
          (hpart : part ∈ (Arguments.members members ending).parts) => Doc.depth_lt_object hpart
        simp only [readNode, hmembers]
      · rfl
    | _ => exact ⟨rfl, rfl⟩

/-- Room for more containers than there are does not change what is read. -/
theorem readNode_add {room : ℕ} {doc : Doc} (h : doc.depth ≤ room) (more : ℕ) :
  readNode (room + more) doc = readNode room doc
  := by
  induction more with
  | zero => rfl
  | succ more ih => rw [← Nat.add_assoc, (readNode_succ (Nat.le_add_right_of_le h)).1, ih]

/-- A tree for which there is room is read as the plan that it holds. -/
theorem readNode_eq_ofTree {room : ℕ} {json : Json} (h : json.depth ≤ room)
    (hroom : room ≤ fullRoom) :
  readNode room (Doc.ofJson json) = ofTree json
  := by
  obtain ⟨more, hmore⟩ := Nat.exists_eq_add_of_le hroom
  rw [ofTree, hmore, readNode_add]
  rw [Doc.depth_ofJson]
  exact h

/-- A list of plans is read from an array, with room for one container less. -/
theorem exists_of_readNodes {room : ℕ} {doc : Doc} {plans : List Plan}
    (h : readNodes room doc = .ok plans) :
  ∃ left, room = left + 1 ∧ ∃ items, doc = .array items none
    ∧ items.mapM (readNode left) = .ok plans
  := by
  cases room with
  | zero => exact absurd (Doc.exists_of_readList h).1 (Nat.lt_irrefl 0)
  | succ room => exact ⟨room, rfl, (Doc.exists_of_readList h).2⟩

/-! ### The places of plans -/

/-- What may stand in the place of plans among the arguments of an operation. -/
inductive Slot where
  /-- A plan. -/
  | plan
  /-- A plan, or null. -/
  | optional
  /-- A list of plans. -/
  | list

/-- The places of plans among the arguments of an operation, in order. -/
def Op.slots : Op → List (String × Slot)
  | query | and | or => [("queries", .list)]
  | not | propertiesFragment | documentFragment | locksFragment => [("query", .plan)]
  | boost => [("matching", .optional), ("boosting", .plan)]
  | _ => []

namespace Slot

/-- The inner tree stands in the argument in the place of a plan. -/
def Holds (argument inner : Json) : Slot → Prop
  | plan => argument = inner
  | optional => argument = inner ∧ argument ≠ .null
  | list => ∃ items, argument = .array items ∧ inner ∈ items

/-- The readers of inner plans take the argument. -/
def Takes (inner : Inner) (argument : Doc) : Slot → Prop
  | plan => ∃ plan, inner.plan argument = .ok plan
  | optional => argument = .null ∨ ∃ plan, inner.plan argument = .ok plan
  | list => ∃ plans, inner.plans argument = .ok plans

theorem Holds.depth_le {slot : Slot} {argument inner : Json} (h : slot.Holds argument inner) :
  inner.depth ≤ argument.depth
  := by
  cases slot with
  | plan =>
    cases h
    exact Nat.le_refl _
  | optional =>
    obtain ⟨rfl, -⟩ := h
    exact Nat.le_refl _
  | list =>
    obtain ⟨items, rfl, hinner⟩ := h
    apply Nat.le_succ_of_le (Json.depthItems_le_iff.mp (Nat.le_refl _) inner hinner)

/-- A tree in an argument that is taken holds a plan. -/
theorem Holds.exists_ofTree {slot : Slot} {argument inner : Json} (h : slot.Holds argument inner)
    {room : ℕ} (hdepth : argument.depth ≤ room) (hroom : room ≤ fullRoom)
    (htakes : slot.Takes ⟨readNode room, readNodes room⟩ (Doc.ofJson argument)) :
  ∃ plan, ofTree inner = .ok plan
  := by
  cases slot with
  | plan =>
    cases h
    rw [← readNode_eq_ofTree hdepth hroom]
    exact htakes
  | optional =>
    obtain ⟨rfl, hnull⟩ := h
    rw [← readNode_eq_ofTree hdepth hroom]
    apply htakes.resolve_left
    intro hdoc
    exact hnull (Doc.ofJson_injective hdoc)
  | list =>
    obtain ⟨items, rfl, hinner⟩ := h
    obtain ⟨plans, hplans⟩ := htakes
    obtain ⟨room, rfl, docs, hdocs, hread⟩ := exists_of_readNodes hplans
    obtain ⟨rfl, -⟩ := Doc.array.inj hdocs
    have hitem : inner.depth ≤ room :=
      Json.depthItems_le_iff.mp (Nat.le_of_succ_le_succ hdepth) inner hinner
    rw [← readNode_eq_ofTree hitem (Nat.le_of_succ_le hroom)]
    apply Except.exists_of_mapM hread
    rw [Doc.ofItems_eq_map]
    apply List.mem_map_of_mem hinner

end Slot

/-- The argument stands in the place of plans. -/
def Arguments.Places (op : Op) (key : String) (slot : Slot) (argument : Doc) : Arguments → Prop
  | .members list _ => (key, slot) ∈ op.slots ∧ (.ok key, argument) ∈ list
  | .items list _ => ((key, slot), argument) ∈ op.slots.zip list

section

variable {op : Op} {key : String} {slot : Slot} {argument : Doc} {arguments : Arguments}

theorem Arguments.Places.mem_slots (h : arguments.Places op key slot argument) :
  (key, slot) ∈ op.slots
  := by
  cases arguments with
  | members list ending => exact h.1
  | items list ending => exact (List.of_mem_zip h).1

theorem Arguments.Places.takes (h : arguments.Places op key slot argument) {types : List Type}
    {fields : Fields types} {build : Tuple types → Plan} {plan : Plan}
    (hkeys : fields.keys = op.slots.map Prod.fst)
    (hread : build <$> arguments.read op fields = .ok plan) :
  fields.Takes key argument
  := by
  obtain ⟨values, hread, -⟩ := Except.map_eq_ok_iff.mp hread
  have hnodup : fields.keys.Nodup := by
    rw [hkeys]
    cases op <;> decide
  cases arguments with
  | members list ending => apply Fields.takes_of_ofMembers hread h.2
  | items list ending =>
    apply Fields.takes_of_ofItems hnodup hread
    rw [hkeys, List.zip_map_left]
    exact List.mem_map_of_mem h

/-- If an operation is read, the readers of inner plans take what stands in their places. -/
theorem takes_of_readArguments {inner : Inner} {plan : Plan}
    (h : readArguments inner op arguments = .ok plan)
    (hargument : arguments.Places op key slot argument) :
  slot.Takes inner argument
  := by
  have hslot := hargument.mem_slots
  cases op with
  | query | and | or | not | propertiesFragment | documentFragment | locksFragment =>
    have htakes := hargument.takes rfl h
    cases List.mem_singleton.mp hslot
    exact htakes
  | boost =>
    have htakes := hargument.takes rfl h
    rcases List.mem_pair.mp hslot with hkey | hkey
    · cases hkey
      obtain ⟨matching, hmatching⟩ :
        ∃ matching, Doc.readOption inner.plan argument = .ok matching := htakes
      cases argument with
      | null => exact Or.inl rfl
      | _ =>
        right
        obtain ⟨plan, hplan, -⟩ := Except.map_eq_ok_iff.mp hmatching
        use plan
    · cases hkey
      exact htakes
  | _ => cases hslot

end

/-! ### Trees in the places of plans -/

/-- The inner tree stands in the outer one where the operation of the outer one has a plan. -/
def HoldsPlan (outer inner : Json) : Prop :=
  match outer with
  | .object members => ∃ op key slot argument, findOp none (Doc.ofMembers members) = .ok op
    ∧ (key, slot) ∈ op.slots ∧ (key, argument) ∈ members ∧ slot.Holds argument inner
  | .array (item :: items) => ∃ op key slot argument, Op.readAny (Doc.ofJson item) = .ok op
    ∧ ((key, slot), argument) ∈ op.slots.zip items ∧ slot.Holds argument inner
  | _ => False

/-- A tree inside a tree that holds a plan. -/
theorem exists_ofTree_of_holdsPlan {outer inner : Json} (hinner : HoldsPlan outer inner)
    (hdepth : outer.depth ≤ fullRoom) {plan : Plan} (h : ofTree outer = .ok plan) :
  inner.depth ≤ fullRoom ∧ ∃ plan, ofTree inner = .ok plan
  := by
  have hargument {op : Op} {key : String} {slot : Slot} {argument : Json} {room : ℕ}
      {arguments : Arguments} (hroom : argument.depth ≤ room) (hfull : room ≤ fullRoom)
      (hread : readArguments ⟨readNode room, readNodes room⟩ op arguments = .ok plan)
      (hplaces : arguments.Places op key slot (Doc.ofJson argument))
      (hholds : slot.Holds argument inner) :
      inner.depth ≤ fullRoom ∧ ∃ plan, ofTree inner = .ok plan := by
    constructor
    · exact (hholds.depth_le.trans hroom).trans hfull
    · exact hholds.exists_ofTree hroom hfull (takes_of_readArguments hread hplaces)
  rw [← readNode_eq_ofTree (Nat.le_refl _) hdepth] at h
  cases outer with
  | object members =>
    obtain ⟨op, key, slot, argument, hop, hslot, hmember, hholds⟩ := hinner
    obtain ⟨found, hfound, hread⟩ := Except.bind_eq_ok_iff.mp h
    rw [hop] at hfound
    cases hfound
    have hroom : argument.depth ≤ Json.depthMembers members :=
      Json.depthMembers_le_iff.mp (Nat.le_refl _) _ hmember
    apply hargument hroom (Nat.le_of_succ_le hdepth) hread ⟨hslot, _⟩ hholds
    rw [Doc.ofMembers_eq_map]
    exact List.mem_map_of_mem hmember
  | array items =>
    cases items with
    | nil => cases hinner
    | cons item items =>
      obtain ⟨op, key, slot, argument, hop, hitem, hholds⟩ := hinner
      obtain ⟨found, hfound, hread⟩ := Except.bind_eq_ok_iff.mp h
      rw [hop] at hfound
      cases hfound
      have hroom : argument.depth ≤ Json.depthItems (item :: items) :=
        Json.depthItems_le_iff.mp (Nat.le_refl _) _
          (List.mem_cons_of_mem item (List.of_mem_zip hitem).2)
      apply hargument hroom (Nat.le_of_succ_le hdepth) hread _ hholds
      show ((key, slot), Doc.ofJson argument) ∈ op.slots.zip (Doc.ofItems items)
      rw [Doc.ofItems_eq_map, List.zip_map_right]
      exact List.mem_map_of_mem hitem
  | _ => cases hinner

/-- A tree holds a plan only if all trees hold one that stand in the places of plans, however
deep. -/
theorem exists_ofTree_of_holdsPlans {outer inner : Json}
    (hinner : Relation.ReflTransGen HoldsPlan outer inner) (hdepth : outer.depth ≤ fullRoom)
    {plan : Plan} (h : ofTree outer = .ok plan) :
  inner.depth ≤ fullRoom ∧ ∃ plan, ofTree inner = .ok plan
  := by
  induction hinner with
  | refl => exact ⟨hdepth, plan, h⟩
  | tail _ hstep ih =>
    obtain ⟨hdepth, plan, hplan⟩ := ih
    apply exists_ofTree_of_holdsPlan hstep hdepth hplan

end Plan

end StructuredQuery
