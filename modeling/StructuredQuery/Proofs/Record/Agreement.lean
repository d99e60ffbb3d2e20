import Mathlib.Tactic.Common
import StructuredQuery.Record

/-!
# Records read in two ways

`Fields.Agree` says of two lists of fields that they differ in nothing but their readers, and
that these do the same on some documents.  Then a record that is made up of those documents is
read alike with both, errors included.
-/

namespace StructuredQuery

namespace Fields

/-- The fields have the same keys and defaults, and their readers agree on the parts. -/
inductive Agree (parts : List Doc) : {types : List Type} → Fields types → Fields types → Prop where
  | done : Agree parts .done .done
  | field {α : Type} {types : List Type} {key : String} {absent : Absent α}
      {read other : Doc → Read α} {rest others : Fields types}
      (hread : ∀ part ∈ parts, read part = other part) (hrest : Agree parts rest others) :
      Agree parts (.field key read absent rest) (.field key other absent others)

variable {types : List Type} {parts : List Doc} {fields others : Fields types}

/-! ### Objects -/

theorem Agree.put?_eq (h : Agree parts fields others) {doc : Doc} (hdoc : doc ∈ parts)
    (key : String) (row : Row types) :
  fields.put? key doc row = others.put? key doc row
  := by
  induction h with
  | done => rfl
  | field hread hrest ih =>
    obtain ⟨slot, slots⟩ := row
    simp only [put?, ih, hread doc hdoc]

theorem Agree.readMembers_eq (h : Agree parts fields others) {members : List Member}
    (hmembers : ∀ member ∈ members, member.2 ∈ parts) (row : Row types) :
  fields.readMembers members row = others.readMembers members row
  := by
  induction members generalizing row with
  | nil => rfl
  | cons member members ih =>
    obtain ⟨key, doc⟩ := member
    obtain ⟨hdoc, hrest⟩ := List.forall_mem_cons.mp hmembers
    simp only [readMembers, h.put?_eq hdoc, ih hrest]

theorem Agree.complete_eq (h : Agree parts fields others) (row : Row types) :
  fields.complete row = others.complete row
  := by
  induction h with
  | done => rfl
  | field hread hrest ih =>
    obtain ⟨slot, slots⟩ := row
    simp only [complete, ih]

/-- An object is read alike by fields that agree on its members. -/
theorem Agree.ofMembers_eq {members : List Member}
    (h : Agree (members.map Prod.snd) fields others) (ending : Option Break) :
  fields.ofMembers members ending = others.ofMembers members ending
  := by
  have hmembers := h.readMembers_eq (fun member hmember => List.mem_map_of_mem hmember)
  simp only [ofMembers, hmembers, h.complete_eq]

/-! ### Arrays -/

theorem Agree.keys_eq (h : Agree parts fields others) :
  fields.keys = others.keys
  := by
  induction h with
  | done => rfl
  | field hread hrest ih => rw [keys, ih, keys]

theorem Agree.readItems_eq (h : Agree parts fields others) (expected : String)
    (ending : Option Break) (index : ℕ) {items : List Doc} (hitems : items ⊆ parts) :
  fields.readItems expected ending index items = others.readItems expected ending index items
  := by
  induction h generalizing index items with
  | done => rfl
  | @field _ _ _ absent read other _ _ hread _ ih =>
    cases items with
    | nil =>
      have hrest := ih (index + 1) (List.nil_subset parts)
      simp only [readItems, bind, Except.bind]
      cases Doc.readEnding ending with
      | error cause => rfl
      | ok _ => cases absent <;> simp only [hrest]
    | cons item items =>
      obtain ⟨hitem, hothers⟩ := List.cons_subset.mp hitems
      have hrest := ih (index + 1) hothers
      simp only [readItems, hread item hitem, bind, Except.bind, Functor.map, Except.map]
      cases other item with
      | error cause => rfl
      | ok value => simp only [hrest]

/-- An array is read alike by fields that agree on its items. -/
theorem Agree.ofItems_eq {items : List Doc} (h : Agree items fields others) (source : Source)
    (name : String) (ending : Option Break) :
  fields.ofItems source name items ending = others.ofItems source name items ending
  := by
  simp only [ofItems, h.keys_eq, h.readItems_eq _ _ _ (List.Subset.refl items)]

end Fields

end StructuredQuery
