import StructuredQuery.Command
import StructuredQuery.Proofs.Config.Label
import StructuredQuery.Proofs.Json.Strings
import StructuredQuery.Proofs.Value

/-!
# Arguments as strings

An argument of a constraint over strings is read as JSON and then written out again, so that the
string in the query may be another one.  The arguments that stay as they are can be told: those
that are no JSON, and the compact texts of values that are no strings.
-/

namespace StructuredQuery

namespace Value

variable {argument : String}

/-! ### Values of arguments -/

theorem ofText_text_eq_ok_iff {value other : Value} :
  ofText value.text = .ok other ↔ value.json.depth ≤ fullRoom ∧ other = value
  := by
  rw [ofText, text, Document.ofText_compact, Document.read_eq_ok_iff,
    (Doc.reads_value fullRoom value).eq_ok_iff]
  simp

/-- The text of a value names the value. -/
theorem ofArgument_text {value : Value} (h : value.json.depth ≤ fullRoom) :
  ofArgument value.text = value
  := by
  rw [ofArgument, ofText_text_eq_ok_iff.mpr ⟨h, rfl⟩]

theorem ofArgument_of_error {cause : ReadError} (h : ofText argument = .error cause) :
  ofArgument argument = .string argument
  := by
  rw [ofArgument, h]

theorem ofArgument_of_ok {value : Value} (h : ofText argument = .ok value) :
  ofArgument argument = value
  := by
  rw [ofArgument, h]

theorem plainText_of_ne_string {value : Value} (h : ∀ text, value ≠ .string text) :
  value.plainText = value.text
  := by
  rw [plainText]
  split
  · next text hview => exact absurd (eq_string_of_view hview) (h text)
  · rfl

/-! ### Arguments that stay as they are -/

/-- The argument is no JSON, or it is the compact text of a value that is no string. -/
def IsKept (argument : String) : Prop :=
  (∃ cause, ofText argument = .error cause)
    ∨ ∃ value : Value, (∀ text, value ≠ .string text) ∧ argument = value.text

/-- A string in quotes loses them. -/
theorem length_lt_of_ofText {text : String} (h : ofText argument = .ok (.string text)) :
  text.length < argument.length
  := by
  obtain ⟨hread, hfollowed⟩ := Document.read_eq_ok_iff.mp h
  obtain ⟨json, hjson, hvalue⟩ := Except.map_eq_ok_iff.mp hread
  have hcanonical : json.canonical = .string text := congrArg Value.json hvalue
  cases json with
  | string own =>
    cases hcanonical
    exact Json.length_lt_of_ofText (Document.read_eq_ok_iff.mpr ⟨hjson, hfollowed⟩)
  | _ => cases hcanonical

/-- A string is written as itself and not as its text. -/
theorem not_isKept_of_ofText {text : String} (h : ofText argument = .ok (.string text)) :
  ¬IsKept argument
  := by
  rintro (⟨cause, herror⟩ | ⟨value, hvalue, rfl⟩)
  · rw [h] at herror
    cases herror
  · exact hvalue text (ofText_text_eq_ok_iff.mp h).2.symm

/-- An argument is written as it is if it is kept. -/
theorem plainText_ofArgument_eq_iff :
  (ofArgument argument).plainText = argument ↔ IsKept argument
  := by
  cases hread : ofText argument with
  | error cause =>
    rw [ofArgument_of_error hread]
    exact iff_of_true rfl (Or.inl ⟨cause, hread⟩)
  | ok value =>
    rw [ofArgument_of_ok hread]
    by_cases hstring : ∃ text, value = .string text
    · obtain ⟨text, rfl⟩ := hstring
      apply iff_of_false _ (not_isKept_of_ofText hread)
      intro heq
      have hlength := length_lt_of_ofText hread
      rw [show text = argument from heq] at hlength
      exact absurd hlength (Nat.lt_irrefl _)
    · rw [plainText_of_ne_string (not_exists.mp hstring)]
      constructor
      · intro heq
        exact Or.inr ⟨value, not_exists.mp hstring, heq.symm⟩
      · rintro (⟨cause, herror⟩ | ⟨other, -, rfl⟩)
        · rw [hread] at herror
          cases herror
        · rw [(ofText_text_eq_ok_iff.mp hread).2]

/-- A whole number of 64 bits stays as it is. -/
theorem isKept_numeral {n : ℤ} (h : -0x8000000000000000 ≤ n ∧ n < 0x10000000000000000) :
  IsKept (numeral n)
  := by
  right
  use .number (.integer n h)
  constructor
  · nofun
  · rw [numeral, text, number, Json.compact, Json.compactOnto, Number.chars, List.append_nil]

end Value

/-! ### Stored strings -/

namespace Query

/-- The strings that a constraint over strings holds. -/
def texts? : Query → Option (List String)
  | wordConstraint _ texts _ | collectionConstraint _ texts | customConstraint _ texts => some texts
  | _ => none

/-- The query holds a string for each argument, and it is the argument just if that is kept. -/
def Stores (arguments : List String) (query : Query) : Prop :=
  ∃ texts, query.texts? = some texts
    ∧ List.Forall₂ (fun argument text => text = argument ↔ Value.IsKept argument) arguments texts

end Query

/-- The kinds of the constraints over strings. -/
def ConstraintKind.textual : List ConstraintKind :=
  [word, collection, custom]

variable {kind : ConstraintKind}

theorem Query.texts?_constraint (h : kind ∈ ConstraintKind.textual) (name : String)
    (values : List Value) :
  (constraint kind name values).texts? = some (values.map Value.plainText)
  := by
  simp only [ConstraintKind.textual, List.mem_cons, List.not_mem_nil, or_false] at h
  rcases h with rfl | rfl | rfl <;> rfl

theorem Query.stores_constraint (h : kind ∈ ConstraintKind.textual) (name : String)
    (arguments : List String) :
  (constraint kind name (arguments.map Value.ofArgument)).Stores arguments
  := by
  refine ⟨_, texts?_constraint h name _, ?_⟩
  rw [List.map_map, List.forall₂_map_right_iff, List.forall₂_same]
  exact fun argument _ => Value.plainText_ofArgument_eq_iff

/-- No configuration refuses a constraint over strings. -/
theorem Config.constraint_of_textual (h : kind ∈ ConstraintKind.textual) (config : Config)
    (name : String) (values : List Value) :
  config.constraint kind name values = .ok (.constraint kind name values)
  := by
  simp only [ConstraintKind.textual, List.mem_cons, List.not_mem_nil, or_false] at h
  rcases h with rfl | rfl | rfl <;> rfl

namespace Request

/-- The text of a value names the value if no more than 127 containers stand inside each other,
and what is no JSON names itself.  Both commands make the constraint of a kind over strings of
their arguments, in their order, each of which is stored as it is just if it is no JSON or the
compact text of a value that is no string.  The text of a string is never of that sort, and a
whole number of 64 bits always is. -/
theorem stores_arguments (sources : Sources) (config : Config) (name : String)
    (arguments : List String) :
  (∀ value : Value, value.json.depth ≤ 127 → Value.ofArgument value.text = value)
  ∧ (∀ argument cause, Value.ofText argument = .error cause →
    Value.ofArgument argument = .string argument)
  ∧ (∀ kind ∈ [ConstraintKind.word, .collection, .custom],
    (∀ label, config.constraintKind label = .ok kind →
      ∃ query, (Request.constraint label name arguments).query sources config = .ok query
        ∧ query.Stores arguments)
    ∧ ∀ file text options, sources.file file = .ok text → Options.ofText text = .ok options →
      options.kindOf name = kind →
        ∃ query, (Request.options file name arguments).query sources config = .ok query
          ∧ query.Stores arguments)
  ∧ (∀ argument text, Value.ofText argument = .ok (.string text) → ¬Value.IsKept argument)
  ∧ ∀ n : ℤ, -0x8000000000000000 ≤ n ∧ n < 0x10000000000000000 → Value.IsKept (numeral n)
  := by
  refine ⟨fun _ => Value.ofArgument_text, fun _ _ => Value.ofArgument_of_error, ?_,
    fun _ _ => Value.not_isKept_of_ofText, fun _ => Value.isKept_numeral⟩
  intro kind hkind
  constructor
  · intro label hlabel
    refine ⟨_, ?_, Query.stores_constraint hkind name arguments⟩
    rw [query, Config.constraintForLabel, hlabel]
    simp only [bind, Except.bind, config.constraint_of_textual hkind]
    rfl
  · rintro file text options hfile hoptions rfl
    refine ⟨_, ?_, Query.stores_constraint hkind name arguments⟩
    rw [query, hfile]
    simp only [Except.mapError, bind, Except.bind, hoptions, Options.constraintIn,
      config.constraint_of_textual hkind]

/-- A string in quotes loses them in a constraint over words, and a number stays. -/
theorem stores_arguments_quoted :
  let sources : Sources := ⟨fun _ => .error .notFound, .error .notFound, none⟩
  let quoted := (Value.string "draft").text
  (∃ query, (Request.constraint (some "word") "status" [quoted, numeral 7]).query sources .strict
      = .ok query ∧ query.Stores [quoted, numeral 7])
    ∧ Value.ofArgument quoted = .string "draft" ∧ ¬Value.IsKept quoted
    ∧ Value.IsKept (numeral 7)
  := by
  intro sources quoted
  have hquoted : Value.ofText quoted = .ok (.string "draft") :=
    Value.ofText_text_eq_ok_iff.mpr ⟨Nat.zero_le _, rfl⟩
  obtain ⟨hvalue, -, hkinds, hstring, hnumber⟩ :=
    stores_arguments sources .strict "status" [quoted, numeral 7]
  exact ⟨(hkinds .word (by decide)).1 (some "word") rfl, hvalue _ (Nat.zero_le _),
    hstring _ _ hquoted, hnumber 7 (by decide)⟩

end Request

end StructuredQuery
