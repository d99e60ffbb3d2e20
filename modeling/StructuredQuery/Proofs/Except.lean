import Mathlib.Data.List.Forall2
import Mathlib.Tactic.Common

/-!
# Results that may be errors

Where the value of a composite result comes from: a value of each of its steps.
-/

namespace Except

variable {ε α β : Type}

theorem map_eq_ok_iff {f : α → β} {result : Except ε α} {value : β} :
  f <$> result = .ok value ↔ ∃ first, result = .ok first ∧ f first = value
  := by
  cases result with
  | error error => simp [Functor.map, Except.map]
  | ok first => simp [Functor.map, Except.map]

theorem bind_eq_ok_iff {result : Except ε α} {next : α → Except ε β} {value : β} :
  result >>= next = .ok value ↔ ∃ first, result = .ok first ∧ next first = .ok value
  := by
  cases result with
  | error error => simp [bind, Except.bind]
  | ok first => simp [bind, Except.bind]

theorem unit_bind_eq_ok_iff {result : Except ε Unit} {next : Unit → Except ε β} {value : β} :
  result >>= next = .ok value ↔ result = .ok () ∧ next () = .ok value
  := by
  cases result with
  | error error => simp [bind, Except.bind]
  | ok first => simp [bind, Except.bind]

theorem mapError_eq_ok_iff {ε' : Type} {f : ε → ε'} {result : Except ε α} {value : α} :
  result.mapError f = .ok value ↔ result = .ok value
  := by
  cases result with
  | error error => simp [Except.mapError]
  | ok first => simp [Except.mapError]

theorem toOption_eq_some_iff {result : Except ε α} {value : α} :
  result.toOption = some value ↔ result = .ok value
  := by
  cases result with
  | error error => simp [Except.toOption]
  | ok first => simp [Except.toOption]

/-- What is left of a result that is known in all cases. -/
theorem toOption_eq_ite {result : Except ε α} {P : Prop} [Decidable P] {value : α}
    (h : ∀ other, result = .ok other ↔ P ∧ value = other) :
  result.toOption = if P then some value else none
  := by
  apply Option.ext
  intro other
  rw [toOption_eq_some_iff, h, Option.ite_none_right_eq_some, Option.some_inj]

theorem mapM_congr {f g : α → Except ε β} {items : List α} (h : ∀ item ∈ items, f item = g item) :
  items.mapM f = items.mapM g
  := by
  induction items with
  | nil => rfl
  | cons item items ih =>
    obtain ⟨hitem, hrest⟩ := List.forall_mem_cons.mp h
    rw [List.mapM_cons, List.mapM_cons, hitem, ih hrest]

/-- A list of steps succeeds if each of them gives the value in its place. -/
theorem mapM_eq_ok_iff_forall₂ {f : α → Except ε β} {items : List α} {values : List β} :
  items.mapM f = .ok values ↔ List.Forall₂ (fun item value => f item = .ok value) items values
  := by
  induction items generalizing values with
  | nil =>
    rw [List.forall₂_nil_left_iff]
    exact ⟨fun h => (Except.ok.inj h).symm, fun h => congrArg Except.ok h.symm⟩
  | cons item items ih =>
    rw [List.mapM_cons, bind_eq_ok_iff, List.forall₂_cons_left_iff]
    simp only [bind_pure_comp, map_eq_ok_iff, ih]
    constructor
    · rintro ⟨first, hfirst, rest, hrest, rfl⟩
      exact ⟨first, rest, hfirst, hrest, rfl⟩
    · rintro ⟨first, rest, hfirst, hrest, rfl⟩
      exact ⟨first, hfirst, rest, hrest, rfl⟩

/-- Each value of a list of steps comes from one of the items. -/
theorem exists_of_mem_mapM {f : α → Except ε β} {items : List α} {values : List β}
    (h : items.mapM f = .ok values) {value : β} (hvalue : value ∈ values) :
  ∃ item ∈ items, f item = .ok value
  := by
  induction items generalizing values with
  | nil =>
    cases h
    cases hvalue
  | cons item items ih =>
    rw [List.mapM_cons, bind_eq_ok_iff] at h
    obtain ⟨first, hfirst, h⟩ := h
    rw [bind_pure_comp, map_eq_ok_iff] at h
    obtain ⟨rest, hrest, rfl⟩ := h
    rcases List.mem_cons.mp hvalue with rfl | hvalue
    · use item, List.mem_cons_self
    · obtain ⟨other, hother, hok⟩ := ih hrest hvalue
      use other, List.mem_cons_of_mem item hother

/-- Each of the items is taken if all steps succeed. -/
theorem exists_of_mapM {f : α → Except ε β} {items : List α} {values : List β}
    (h : items.mapM f = .ok values) :
  ∀ item ∈ items, ∃ value, f item = .ok value
  := by
  induction items generalizing values with
  | nil => simp
  | cons item items ih =>
    rw [List.mapM_cons, bind_eq_ok_iff] at h
    obtain ⟨first, hfirst, h⟩ := h
    obtain ⟨rest, hrest, -⟩ := bind_eq_ok_iff.mp h
    exact List.forall_mem_cons.mpr ⟨⟨first, hfirst⟩, ih hrest⟩

/-- All steps succeed if each of them does. -/
theorem exists_mapM {f : α → Except ε β} {items : List α}
    (h : ∀ item ∈ items, ∃ value, f item = .ok value) :
  ∃ values, items.mapM f = .ok values
  := by
  induction items with
  | nil => exact ⟨[], rfl⟩
  | cons item items ih =>
    obtain ⟨⟨first, hfirst⟩, hrest⟩ := List.forall_mem_cons.mp h
    obtain ⟨rest, hrest⟩ := ih hrest
    use first :: rest
    rw [List.mapM_cons, hfirst, hrest]
    rfl

end Except
