import StructuredQuery.Proofs.Config.Label

/-!
# Operations for one kind of constraint

Most kinds of constraints have an operation of their own in plans, and all of them can be made
by the operation that is given the label of the kind.  The two agree but for arguments of null,
which the operations for ranges and values take for a term, and for arguments that should be
strings and are not, which only the label writes out as text.
-/

namespace StructuredQuery

namespace Value

/-- Null, a string, or a list of strings. -/
def IsStrings (value : Value) : Prop :=
  value = .null ∨ (∃ text, value = .string text)
    ∨ ∃ texts : List String, value = .array (texts.map .string)

theorem exists_string_eq {value : Value} (h : value.isString) :
  ∃ text, .string text = value
  := by
  obtain ⟨json, hcanonical⟩ := value
  cases json with
  | string text => exact ⟨text, rfl⟩
  | _ => cases h

/-- An argument is made of strings if all that is given with it are strings. -/
theorem isStrings_iff {value : Value} :
  value.IsStrings ↔ ∀ item ∈ value.given, item.isString
  := by
  constructor
  · rintro (rfl | ⟨text, rfl⟩ | ⟨texts, rfl⟩) item hitem
    · cases hitem
    · cases List.mem_singleton.mp hitem
      rfl
    · rw [given_array] at hitem
      obtain ⟨text, -, rfl⟩ := List.mem_map.mp hitem
      rfl
  · intro h
    cases hview : value.view with
    | null => exact Or.inl (eq_null_of_view hview)
    | array items =>
      obtain rfl := eq_array_of_view hview
      rw [given_array] at h
      have hrange : items ∈ Set.range (List.map string) := by
        rw [Set.range_list_map]
        exact fun item hitem => exists_string_eq (h item hitem)
      obtain ⟨texts, rfl⟩ := hrange
      exact Or.inr (Or.inr ⟨texts, rfl⟩)
    | _ =>
      have hgiven : value.given = [value] := by rw [given, elements, hview]
      obtain ⟨text, rfl⟩ := exists_string_eq (h value (by simp [hgiven]))
      exact Or.inr (Or.inl ⟨text, rfl⟩)

/-- Only of null nothing is given where its elements would be taken. -/
theorem given_of_ne_null {value : Value} (h : value ≠ .null) :
  value.given = value.elements
  := by
  rw [given]
  split
  · next hview => exact absurd (eq_null_of_view hview) h
  · rfl

end Value

namespace Plan

/-- Strings are taken as they would be written out, up to the first item that is none. -/
theorem strings_eq_ok {argument : Value} (h : argument.IsStrings) (field : String) :
  strings field argument = .ok (argument.given.map Value.plainText)
  := by
  have hpure : (argument.given.mapM fun item => (.ok item.plainText : Build String))
      = .ok (argument.given.map Value.plainText) := List.mapM_pure ..
  rw [strings, ← hpure]
  apply Except.mapM_congr
  intro item hitem
  obtain ⟨text, rfl⟩ := Value.exists_string_eq (Value.isStrings_iff.mp h item hitem)
  rfl

theorem strings_eq_error {argument : Value} (h : ¬argument.IsStrings) :
  ∃ item, argument.given.find? (fun item => !item.isString) = some item
    ∧ ∀ field, strings field argument = .error (.notAString field item)
  := by
  cases hfirst : argument.given.find? fun item => !item.isString with
  | none =>
    apply absurd (Value.isStrings_iff.mpr _) h
    simpa using hfirst
  | some item =>
    use item, rfl
    intro field
    rw [← Build.error?_eq_some_iff, error?_strings, stringsError, hfirst]
    rfl

/-- The operation for constraints of one kind, with nothing given that may be left out. -/
def ofKind (kind : ConstraintKind) (name : String) (argument : Value) : Plan :=
  match kind with
  | .range | .unspecified => .range name none argument .null
  | .value => .value name argument none
  | .word => .word name argument none
  | .collection => .collectionConstraint name argument
  | .custom => .custom name argument
  | .customGeospatial => .customGeospatial name none argument
  | .geospatial => .geospatial name argument

theorem compile_label? (config : Config) (kind : ConstraintKind) (name : String)
    (argument : Value) :
  compile config (.constraint kind.label? name argument)
    = config.constraint kind name argument.given
  := by
  rw [compile, Config.constraintForLabel_label?]

end Plan

namespace ConstraintKind

/-- The arguments of which the operation for a kind and the label of the kind make the same. -/
def Agrees (kind : ConstraintKind) (argument : Value) : Prop :=
  match kind with
  | geospatial | customGeospatial => True
  | range | value | unspecified => argument ≠ .null
  | word | collection | custom => argument.IsStrings

end ConstraintKind

namespace Plan

variable (config : Config) (name : String)

/-- The value operation takes null for a term, the label takes it for no terms at all. -/
theorem hasValue_nil_ne :
  config.hasValue name [] none ≠ config.hasValue name [.null] none
  := by
  unfold Config.hasValue Config.termsOf
  cases config.labels <;> nofun

/-- The label of a kind and the operation for it agree, errors included, on just these
arguments. -/
theorem compile_label?_eq_iff (kind : ConstraintKind) (argument : Value) :
  compile config (.constraint kind.label? name argument)
      = compile config (ofKind kind name argument)
    ↔ kind.Agrees argument
  := by
  rw [compile_label?]
  cases kind with
  | geospatial | customGeospatial => exact iff_of_true rfl trivial
  | range | unspecified =>
    constructor
    · rintro h rfl
      cases h
    · intro h
      rw [Value.given_of_ne_null h]
      rfl
  | value =>
    constructor
    · rintro h rfl
      exact hasValue_nil_ne config name h
    · intro h
      rw [Value.given_of_ne_null h]
      rfl
  | word | collection | custom =>
    constructor
    · intro h
      by_contra hstrings
      obtain ⟨item, -, herror⟩ := strings_eq_error hstrings
      rw [ofKind, compile, herror] at h
      cases h
    · intro h
      rw [ofKind, compile, strings_eq_ok h]
      rfl

/-- For every kind the operation of its own and the one that is given its label make the same
constraint or fail alike, just where the kind agrees on the argument.  Of null the first makes a
range or a value of the term null, and the second one of no terms; of an argument that does not
consist of strings the first fails at the first item that is none, and the second writes it out. -/
theorem compile_label_or_operation (argument : Value) :
  (∀ kind : ConstraintKind,
    compile config (.constraint kind.label? name argument)
        = compile config (ofKind kind name argument)
      ↔ kind.Agrees argument)
  ∧ (compile config (.range name none .null .null) = .ok (.inRange name [.null] none [])
    ∧ compile config (.constraint (some "range") name .null) = .ok (.inRange name [] none [])
    ∧ compile config (.value name .null none) = .ok (.hasValue name .null none)
    ∧ compile config (.constraint (some "value") name .null)
      = match config.labels with
        | .permissive => .ok (.hasValue name (.text []) none)
        | .strict => .error (.untypedTerms .empty))
  ∧ (¬argument.IsStrings →
    ∃ item, argument.given.find? (fun item => !item.isString) = some item
      ∧ compile config (.word name argument none) = .error (.notAString "text" item)
      ∧ compile config (.collectionConstraint name argument) = .error (.notAString "uri" item)
      ∧ compile config (.custom name argument) = .error (.notAString "text" item)
      ∧ compile config (.constraint (some "word") name argument)
        = .ok (.hasWord name (argument.given.map Value.plainText) none)
      ∧ compile config (.constraint (some "collection") name argument)
        = .ok (.collectionConstraint name (argument.given.map Value.plainText))
      ∧ compile config (.constraint (some "custom") name argument)
        = .ok (.customConstraint name (argument.given.map Value.plainText)))
  ∧ ∀ item : Value, item.isString ∧ item = .string item.plainText
    ∨ ¬item.isString ∧ item.plainText = item.text
  := by
  refine ⟨fun kind => compile_label?_eq_iff config name kind argument, ⟨rfl, ?_, ?_, ?_⟩, ?_, ?_⟩
  · exact compile_label? config .range name .null
  · rw [compile, Config.hasValue, Config.termsOf]
    cases config.labels <;> rfl
  · rw [show some "value" = ConstraintKind.value.label? from rfl, compile_label?, Config.constraint,
      Config.hasValue, Config.termsOf]
    cases config.labels <;> rfl
  · intro h
    obtain ⟨item, hfirst, herror⟩ := strings_eq_error h
    refine ⟨item, hfirst, ?_, ?_, ?_, compile_label? config .word name argument,
      compile_label? config .collection name argument, compile_label? config .custom name argument⟩
    · rw [compile, herror]
      rfl
    · rw [compile, herror]
      rfl
    · rw [compile, herror]
      rfl
  · intro item
    cases hstring : item.isString with
    | true =>
      obtain ⟨text, rfl⟩ := Value.exists_string_eq hstring
      exact Or.inl ⟨rfl, rfl⟩
    | false =>
      right
      use Bool.false_ne_true
      rw [Value.plainText]
      rw [Value.isString] at hstring
      split
      · next hview =>
        rw [hview] at hstring
        cases hstring
      · rfl

/-- A list of a string and a number. -/
theorem compile_label_or_operation_mixed :
  let three : Value := .number (.integer 3 (by decide))
  let argument : Value := .array [.string "a", three]
  ¬argument.IsStrings
    ∧ compile .strict (.word "name" argument none) = .error (.notAString "text" three)
    ∧ compile .strict (.constraint (some "word") "name" argument)
      = .ok (.hasWord "name" ["a", "3"] none)
  := by
  intro three argument
  have hstrings : ¬argument.IsStrings := by
    rw [Value.isStrings_iff, Value.given_array]
    intro h
    cases h three (by simp)
  obtain ⟨item, hfirst, hword, -, -, hlabel, -⟩ :=
    (compile_label_or_operation .strict "name" argument).2.2.1 hstrings
  rw [Value.given_array] at hfirst hlabel
  cases hfirst
  exact ⟨hstrings, hword, hlabel⟩

end Plan

end StructuredQuery
