import Mathlib.Tactic.Common
import StructuredQuery.Proofs.Json.Canonical
import StructuredQuery.Reading

/-!
# Reading written trees

`Read.Gives` says exactly when a result is there and what it is.  `Doc.Reads` says it of a
reader and a tree that has been written: the tree is read if it is no deeper than the room
there is and some condition on its data holds.
-/

namespace StructuredQuery

namespace Read

variable {α β : Type}

/-- The result is this value if the condition holds, and an error if it does not. -/
structure Gives (result : Read α) (condition : Prop) (value : α) : Prop where
  ok : condition → result = .ok value
  error : ¬condition → ∃ cause, result = .error cause

theorem gives_ok (value : α) :
  Gives (.ok value) True value
  := ⟨fun _ => rfl, fun h => absurd trivial h⟩

theorem gives_error {cause : ReadError} {condition : Prop} (h : ¬condition) (value : α) :
  Gives (.error cause) condition value
  := ⟨fun hcondition => absurd hcondition h, fun _ => ⟨cause, rfl⟩⟩

variable {result : Read α} {condition other : Prop} {value : α}

/-- An equivalent condition will do, and any name of the same value. -/
theorem Gives.congr (h : Gives result condition value) (hiff : condition ↔ other) {same : α}
    (hvalue : value = same) :
  Gives result other same
  := by
  subst hvalue
  use fun hother => h.ok (hiff.mpr hother)
  exact fun hother => h.error (mt hiff.mp hother)

theorem Gives.eq_ok_iff (h : Gives result condition value) {same : α} :
  result = .ok same ↔ condition ∧ same = value
  := by
  by_cases hcondition : condition
  · rw [h.ok hcondition, Except.ok.injEq, eq_comm, and_iff_right hcondition]
  · obtain ⟨cause, hcause⟩ := h.error hcondition
    rw [hcause]
    exact ⟨nofun, fun hboth => absurd hboth.1 hcondition⟩

theorem Gives.map (f : α → β) (h : Gives result condition value) :
  Gives (f <$> result) condition (f value)
  := by
  constructor
  · intro hcondition
    rw [h.ok hcondition]
    rfl
  · intro hcondition
    obtain ⟨cause, hcause⟩ := h.error hcondition
    use cause
    rw [hcause]
    rfl

theorem Gives.bind {next : α → Read β} {last : β} (h : Gives result condition value)
    (hnext : condition → Gives (next value) other last) :
  Gives (result >>= next) (condition ∧ other) last
  := by
  by_cases hcondition : condition
  · rw [h.ok hcondition]
    exact (hnext hcondition).congr (by simp [hcondition]) rfl
  · obtain ⟨cause, hcause⟩ := h.error hcondition
    rw [hcause]
    apply gives_error fun hboth => hcondition hboth.1

/-- A step that cannot fail any more adds no condition. -/
theorem Gives.bind_ok {next : α → Read β} {last : β} (h : Gives result condition value)
    (hnext : condition → next value = .ok last) :
  Gives (result >>= next) condition last
  := by
  apply (h.bind fun hcondition => ?_).congr (and_iff_left trivial) rfl
  rw [hnext hcondition]
  apply gives_ok

/-- A list is read if each of its items is. -/
theorem gives_mapM {f : α → Read β} {condition : α → Prop} {value : α → β} {items : List α}
    (h : ∀ item ∈ items, Gives (f item) (condition item) (value item)) :
  Gives (items.mapM f) (∀ item ∈ items, condition item) (items.map value)
  := by
  induction items with
  | nil => exact (gives_ok []).congr (by simp) rfl
  | cons item items ih =>
    obtain ⟨hitem, hrest⟩ := List.forall_mem_cons.mp h
    rw [List.mapM_cons]
    apply (hitem.bind fun _ => (ih hrest).map (value item :: ·)).congr _ rfl
    simp

end Read

namespace Json

theorem depthItems_le_iff {items : List Json} {room : ℕ} :
  depthItems items ≤ room ↔ ∀ item ∈ items, item.depth ≤ room
  := by
  induction items with
  | nil => simp [depthItems]
  | cons item items ih => rw [depthItems, Nat.max_le, ih, List.forall_mem_cons]

theorem depthMembers_le_iff {members : List (String × Json)} {room : ℕ} :
  depthMembers members ≤ room ↔ ∀ member ∈ members, member.2.depth ≤ room
  := by
  induction members with
  | nil => simp [depthMembers]
  | cons member members ih => rw [depthMembers, Nat.max_le, ih, List.forall_mem_cons]

theorem depthMembers_append (members others : List (String × Json)) :
  depthMembers (members ++ others) = max (depthMembers members) (depthMembers others)
  := by
  induction members with
  | nil => simp [depthMembers]
  | cons member members ih => rw [List.cons_append, depthMembers, ih, depthMembers, Nat.max_assoc]

end Json

namespace Doc

variable {α : Type}

/-- The reader reads the tree as the value if the tree is no deeper than the room and the
condition holds, and fails if not. -/
def Reads (room : ℕ) (read : Doc → Read α) (json : Json) (condition : Prop) (value : α) : Prop :=
  (read (ofJson json)).Gives (json.depth ≤ room ∧ condition) value

/-- A reader that always reads a tree which is no container. -/
theorem reads_of_eq_ok {read : Doc → Read α} {json : Json} {value : α}
    (h : read (ofJson json) = .ok value) (hdepth : json.depth = 0) (room : ℕ) :
  Reads room read json True value
  := by
  rw [Reads, h, hdepth]
  exact (Read.gives_ok value).congr (by simp) rfl

/-! ### Scalars -/

theorem reads_string (room : ℕ) (text : String) :
  Reads room readString (.string text) True text
  := reads_of_eq_ok (by rfl) (by rfl) room

theorem reads_bool (room : ℕ) (value : Bool) :
  Reads room readBool (.bool value) True value
  := reads_of_eq_ok (by rfl) (by rfl) room

/-- A double is read if it is finite: any other is written as null. -/
theorem reads_double (room : ℕ) (x : Double) :
  Reads room readDouble (.ofDouble x) x.IsFinite x
  := by
  rw [Reads, Json.ofDouble]
  split
  · next h => exact (Read.gives_ok x).congr (by simp [Json.depth, h]) rfl
  · next h => apply Read.gives_error fun hboth => h hboth.2

@[simp]
theorem readDouble_ofDouble {x y : Double} :
  readDouble (ofJson (.ofDouble x)) = .ok y ↔ x.IsFinite ∧ y = x
  := by
  rw [(reads_double 0 x).eq_ok_iff, Json.depth_ofDouble, and_iff_right (Nat.le_refl 0)]

/-! ### Trees -/

mutual

/-- A tree is read as itself. -/
theorem reads_tree :
    (json : Json) → (room : ℕ) → Reads room (readTree room) json True json
  | .null, room => reads_of_eq_ok (by cases room <;> rfl) rfl room
  | .bool _, room => reads_of_eq_ok (by cases room <;> rfl) rfl room
  | .number _, room => reads_of_eq_ok (by cases room <;> rfl) rfl room
  | .string _, room => reads_of_eq_ok (by cases room <;> rfl) rfl room
  | .array _, 0 => Read.gives_error (by simp [Json.depth]) _
  | .object _, 0 => Read.gives_error (by simp [Json.depth]) _
  | .array items, room + 1 =>
    ((gives_items items room).map Json.array).congr (by simp [Json.depth]) rfl
  | .object members, room + 1 =>
    ((gives_members members room).map Json.object).congr (by simp [Json.depth]) rfl

theorem gives_items :
    (items : List Json) → (room : ℕ) →
      ((ofItems items).mapM (readTree room)).Gives (Json.depthItems items ≤ room) items
  | [], room => (Read.gives_ok []).congr (by simp [Json.depthItems]) rfl
  | item :: items, room => by
    rw [ofItems, List.mapM_cons]
    exact ((reads_tree item room).bind fun _ => (gives_items items room).map (item :: ·)).congr
      (by rw [and_true, Json.depthItems, Nat.max_le]) rfl

theorem gives_members :
    (members : List (String × Json)) → (room : ℕ) →
      ((ofMembers members).mapM fun (member : Member) => do
        let key ← Read.ofFlaw member.1
        return (key, ← readTree room member.2)).Gives (Json.depthMembers members ≤ room) members
  | [], room => (Read.gives_ok []).congr (by simp [Json.depthMembers]) rfl
  | (key, value) :: members, room => by
    rw [ofMembers, List.mapM_cons]
    exact (((reads_tree value room).map (key, ·)).bind fun _ =>
      (gives_members members room).map ((key, value) :: ·)).congr
        (by rw [and_true, Json.depthMembers, Nat.max_le]) rfl

end

/-- A document is one tree only: with room enough it is read as that tree. -/
theorem ofJson_injective :
  Function.Injective ofJson
  := by
  intro json other h
  have hjson := (reads_tree json (max json.depth other.depth)).ok ⟨Nat.le_max_left .., trivial⟩
  have hother := (reads_tree other (max json.depth other.depth)).ok ⟨Nat.le_max_right .., trivial⟩
  rw [h, hother] at hjson
  exact (Except.ok.inj hjson).symm

/-- A value is read from its tree. -/
theorem reads_value (room : ℕ) (value : Value) :
  Reads room (readValue room) value.json True value
  := ((reads_tree value.json room).map Value.ofJson).congr Iff.rfl value.ofJson_json

/-- A tree is read first, and then its data is taken from it. -/
theorem reads_of_tree {room : ℕ} {json : Json} {next : Json → Read α} {value : α}
    (h : json.depth ≤ room → next json = .ok value) :
  Reads room (fun doc => doc.readTree room >>= next) json True value
  := (reads_tree json room).bind_ok fun hdepth => h hdepth.1

/-! ### Options, lists and labels -/

theorem reads_option_none (room : ℕ) (read : Doc → Read α) :
  Reads room (readOption read) .null True none
  := reads_of_eq_ok (by rfl) (by rfl) room

theorem reads_option_some {room : ℕ} {read : Doc → Read α} {json : Json} {condition : Prop}
    {value : α} (hjson : json ≠ .null) (h : Reads room read json condition value) :
  Reads room (readOption read) json condition (some value)
  := by
  have hread : readOption read (ofJson json) = some <$> read (ofJson json) := by
    cases json with
    | null => contradiction
    | _ => rfl
  rw [Reads, hread]
  apply Read.Gives.map some h

theorem ofItems_eq_map (items : List Json) :
  ofItems items = items.map ofJson
  := by
  induction items with
  | nil => rfl
  | cons item items ih => rw [ofItems, ih, List.map_cons]

theorem ofItems_map {β : Type} (encode : β → Json) (sources : List β) :
  ofItems (sources.map encode) = sources.map fun source => ofJson (encode source)
  := by
  rw [ofItems_eq_map, List.map_map]
  rfl

theorem ofMembers_eq_map (members : List (String × Json)) :
  ofMembers members = members.map fun member => (.ok member.1, ofJson member.2)
  := by
  induction members with
  | nil => rfl
  | cons member members ih => rw [ofMembers, ih, List.map_cons]

theorem ofMembers_injective :
  Function.Injective ofMembers
  := by
  intro members others h
  have hdoc : ofJson (.object members) = ofJson (.object others) := by rw [ofJson, h, ofJson]
  exact Json.object.inj (ofJson_injective hdoc)

/-- Members are chosen by their keys in a document as they are in the tree. -/
theorem filter_ofMembers {p : Key → Bool} {q : String → Bool} (h : ∀ key, p (.ok key) = q key)
    (members : List (String × Json)) :
  ((ofMembers members).filter fun member => p member.1)
    = ofMembers (members.filter fun member => q member.1)
  := by
  simp only [ofMembers_eq_map, List.filter_map, Function.comp_def, h]

/-- Where there is room, an array is read if each of its items is read. -/
theorem gives_list {β : Type} {item : Doc → Read α} {encode : β → Json} {condition : β → Prop}
    {value : β → α} {sources : List β}
    (h : ∀ source ∈ sources,
      (item (ofJson (encode source))).Gives (condition source) (value source))
    {room : ℕ} (hroom : 0 < room) :
  (readList room item (ofJson (.array (sources.map encode)))).Gives
    (∀ source ∈ sources, condition source) (sources.map value)
  := by
  have hitems : ((ofItems (sources.map encode)).mapM item).Gives
      (∀ source ∈ sources, condition source) (sources.map value) := by
    rw [ofItems_map, List.mapM_map]
    apply Read.gives_mapM h
  simp only [readList, ofJson, if_neg (Nat.ne_of_gt hroom)]
  apply hitems.bind_ok
  intro _
  rfl

/-- An array is read if there is room for it and each of its items is read. -/
theorem reads_list {β : Type} {room : ℕ} {item : Doc → Read α} {encode : β → Json}
    {condition : β → Prop} {value : β → α} {sources : List β}
    (h : 0 < room → ∀ source ∈ sources,
      Reads (room - 1) item (encode source) (condition source) (value source)) :
  Reads room (readList room item) (.array (sources.map encode))
    (∀ source ∈ sources, condition source) (sources.map value)
  := by
  cases room with
  | zero => apply Read.gives_error (by simp [Json.depth])
  | succ room =>
    apply (gives_list (h room.succ_pos) room.succ_pos).congr _ rfl
    simp [Json.depth, Json.depthItems_le_iff, forall_and]

/-- A list is read back if its items always are. -/
theorem reads_list_self {room : ℕ} {item : Doc → Read α} {encode : α → Json}
    (h : ∀ value, Reads (room - 1) item (encode value) True value) (values : List α) :
  Reads room (readList room item) (.array (values.map encode)) True values
  := by
  have hlist : Reads room (readList room item) (.array (values.map encode))
      (∀ value ∈ values, True) (values.map id) := reads_list fun _ value _ => h value
  apply hlist.congr (by simp) values.map_id

/-- Contents under a label are read if there is room for the object around them. -/
theorem reads_labelled {β : Type} {room : ℕ} {known : List String} {case? : String → Option α}
    {content : α → Doc → Read β} {alone : α → Read β} {label : String} {case : α} {json : Json}
    {condition : Prop} {value : β} (hlabel : case? label = some case)
    (h : 0 < room → Reads (room - 1) (content case) json condition value) :
  Reads room (readLabelled room known case? content alone) (.object [(label, json)]) condition
    value
  := by
  cases room with
  | zero => apply Read.gives_error (by simp [Json.depth])
  | succ room =>
    have hcontent : (content case (ofJson json)).Gives
        ((Json.object [(label, json)]).depth ≤ room + 1 ∧ condition) value :=
      (h room.succ_pos).congr (by simp [Json.depth, Json.depthMembers]) rfl
    simp only [Reads, readLabelled, ofJson, ofMembers, if_neg room.succ_ne_zero, Read.ofFlaw,
      readLabel, bind, Except.bind, hlabel]
    apply hcontent.bind_ok
    intro _
    rfl

end Doc

end StructuredQuery
