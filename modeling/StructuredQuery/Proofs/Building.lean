import StructuredQuery.BuildError
import StructuredQuery.Proofs.Except

/-!
# Results of building

`Build.error?` is the error of a result, and `Build.Extends` says that one result is
another one with perhaps fewer errors.  Both go through the steps of a composite result.
-/

namespace StructuredQuery

namespace Build

variable {α β : Type}

/-! ### Errors -/

/-- The error of a result. -/
def error? : Build α → Option BuildError
  | .ok _ => none
  | .error error => some error

@[simp]
theorem error?_ok (value : α) :
  error? (.ok value) = none
  := rfl

@[simp]
theorem error?_error (error : BuildError) :
  error? (.error error : Build α) = some error
  := rfl

@[simp]
theorem error?_map (f : α → β) (result : Build α) :
  error? (f <$> result) = error? result
  := by
  cases result <;> rfl

/-- A step after which nothing can fail but a second step has the error of the first one,
or else that of the second. -/
theorem error?_bind (result : Build α) (next : α → Build β) (error : Option BuildError)
    (h : ∀ value, result = .ok value → error? (next value) = error) :
  error? (result >>= next) = (error? result).or error
  := by
  cases result with
  | error first => rfl
  | ok value => apply h value rfl

theorem error?_eq_some_iff {result : Build α} {error : BuildError} :
  error? result = some error ↔ result = .error error
  := by
  cases result <;> simp

theorem error?_eq_none_iff {result : Build α} :
  error? result = none ↔ ∃ value, result = .ok value
  := by
  cases result <;> simp

/-- A list of steps has the error of the first step that has one. -/
theorem error?_mapM (f : α → Build β) (items : List α) :
  error? (items.mapM f) = items.findSome? fun item => error? (f item)
  := by
  induction items with
  | nil => rfl
  | cons item items ih =>
    rw [List.mapM_cons, List.findSome?_cons,
      error?_bind _ _ (items.findSome? fun item => error? (f item))]
    · cases error? (f item) <;> rfl
    · intro value _
      rw [bind_pure_comp, error?_map, ih]

/-! ### Fewer errors -/

/-- Every value of `high` is the value of `low`. -/
def Extends (low high : Build α) : Prop :=
  ∀ value, high = .ok value → low = .ok value

theorem Extends.refl (result : Build α) :
  Extends result result
  := fun _ h => h

theorem Extends.bind {low high : Build α} {lowNext highNext : α → Build β}
    (h : Extends low high) (hnext : ∀ value, Extends (lowNext value) (highNext value)) :
  Extends (low >>= lowNext) (high >>= highNext)
  := by
  intro value hvalue
  cases high with
  | error error => cases hvalue
  | ok first =>
    rw [h first rfl]
    apply hnext first value hvalue

theorem Extends.map {low high : Build α} (f : α → β) (h : Extends low high) :
  Extends (f <$> low) (f <$> high)
  := by
  rw [← bind_pure_comp, ← bind_pure_comp]
  apply Extends.bind h
  intro value
  apply Extends.refl

theorem Extends.mapM {low high : α → Build β} {items : List α}
    (h : ∀ item ∈ items, Extends (low item) (high item)) :
  Extends (items.mapM low) (items.mapM high)
  := by
  induction items with
  | nil => apply Extends.refl
  | cons item items ih =>
    rw [List.mapM_cons, List.mapM_cons]
    apply Extends.bind
    · apply h item List.mem_cons_self
    · intro value
      apply Extends.bind
      · apply ih
        intro other hother
        apply h other (List.mem_cons_of_mem item hother)
      · intro values
        apply Extends.refl

end Build

end StructuredQuery
