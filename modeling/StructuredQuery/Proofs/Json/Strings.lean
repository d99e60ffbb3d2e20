import StructuredQuery.Proofs.Json.Embedding

/-!
# The lengths of strings

A string is shorter than any JSON text that is read as it, as the quotes are no part of it and
an escape is longer than the character that it stands for.  `Token.Fits` is the invariant of the
scanner: a string has fewer characters than have been read.
-/

namespace StructuredQuery

namespace Token

theorem length_le_succ_of_map {result : Except Flaw (List Char)} {c : Char} {cs : List Char}
    {count : ℕ} (hresult : ∀ {rest : List Char}, result = .ok rest → rest.length ≤ count)
    (h : (c :: ·) <$> result = .ok cs) :
  cs.length ≤ count + 1
  := by
  obtain ⟨rest, hrest, rfl⟩ := Except.map_eq_ok_iff.mp h
  exact Nat.succ_le_succ (hresult hrest)

/-- Pieces stand for one character each at most, and two of them for a single one if they are the
halves of a pair. -/
theorem length_le_of_joinPieces {ending : Option Flaw} {pieces : List Piece} {cs : List Char}
    (h : joinPieces ending pieces = .ok cs) :
  cs.length ≤ pieces.length
  := by
  fun_induction joinPieces ending pieces generalizing cs with
  | case1 =>
    cases h
    rfl
  | case3 c pieces ih => apply length_le_succ_of_map ih h
  | case6 unit _ _ ih => apply length_le_succ_of_map ih h
  | case9 unit c pieces _ _ ih => apply length_le_succ_of_map ih h
  | case10 unit next pieces _ _ ih =>
    -- The first half of a pair, and the second one.
    apply Nat.le_succ_of_le (length_le_succ_of_map ih h)
  | case13 unit next pieces _ _ ih => apply length_le_succ_of_map ih h
  | _ => cases h

/-- A string has fewer characters than this. -/
def Fits (count : ℕ) : Token → Prop
  | .string (.ok text) => text.length < count
  | _ => True

theorem Fits.mono {token : Token} {count bound : ℕ} (h : token.Fits count) (hle : count ≤ bound) :
  token.Fits bound
  := by
  cases token with
  | string value =>
    cases value with
    | error flaw => trivial
    | ok text => exact Nat.lt_of_lt_of_le h hle
  | _ => trivial

theorem fits_ofPieces {pieces : List Piece} {count : ℕ} (h : pieces.length < count) :
  (ofPieces pieces).Fits count
  := by
  rw [ofPieces]
  cases hjoin : joinPieces none pieces with
  | error flaw => trivial
  | ok cs =>
    apply Nat.lt_of_le_of_lt _ h
    rw [String.length_ofList]
    apply length_le_of_joinPieces hjoin

theorem fits_ofBrokenPieces (pieces : List Piece) (flaw : Flaw) (count : ℕ) :
  (ofBrokenPieces pieces flaw).Fits count
  := by
  rw [ofBrokenPieces]
  split <;> trivial

namespace Mode

/-- What has been read of a token is less than this. -/
def Fits (count : ℕ) : Mode → Prop
  | word token _ => token.Fits count
  | string pieces | escape pieces | code pieces _ _ => pieces.length < count
  | between | number _ _ => True

/-- The tokens that a step gives and the mode that follows fit. -/
def StepFits (count : ℕ) (result : List Token × Option Mode) : Prop :=
  (∀ token ∈ result.1, token.Fits count) ∧ ∀ next ∈ result.2, next.Fits count

theorem stepFits_mode {mode : Mode} {count : ℕ} (h : mode.Fits count) :
  StepFits count ([], some mode)
  := by
  simp [StepFits, h]

theorem stepFits_token {token : Token} {count : ℕ} (h : token.Fits count) :
  StepFits count ([token], some between)
  := by
  simp [StepFits, h, Fits]

theorem stepFits_broken (pieces : List Piece) (flaw : Flaw) (count : ℕ) :
  StepFits count ([ofBrokenPieces pieces flaw], none)
  := by
  simp [StepFits, fits_ofBrokenPieces]

theorem stepFits_ite {p : Prop} [Decidable p] {count : ℕ} {result other : List Token × Option Mode}
    (h : StepFits count result) (hother : StepFits count other) :
  StepFits count (if p then result else other)
  := by
  split
  · exact h
  · exact hother

theorem stepFits_start (c : Char) {count : ℕ} (h : 0 < count) :
  StepFits count (start c)
  := by
  rw [start]
  cases Numeral.digit? c <;>
    repeat' apply stepFits_ite
  all_goals simp [StepFits, Fits, Token.Fits, h]

/-- A token that ends where another one starts. -/
theorem stepFits_start_after {token : Token} {count : ℕ} (htoken : token.Fits count) (c : Char)
    (h : 0 < count) :
  StepFits count (let (tokens, next) := start c; (token :: tokens, next))
  := by
  obtain ⟨htokens, hnext⟩ := stepFits_start c h
  exact ⟨List.forall_mem_cons.mpr ⟨htoken, htokens⟩, hnext⟩

/-- Each character makes room for one more piece. -/
theorem stepFits_step {mode : Mode} {count : ℕ} (h : mode.Fits count) (c : Char) :
  StepFits (count + 1) (mode.step c)
  := by
  cases mode with
  | between => apply stepFits_start c count.succ_pos
  | word token left =>
    have htoken := Token.Fits.mono h (Nat.le_succ count)
    cases left with
    | nil => apply stepFits_start_after htoken c count.succ_pos
    | cons expected left =>
      rw [step]
      apply stepFits_ite
      · simp [StepFits, Token.Fits]
      · apply stepFits_ite
        · apply stepFits_token htoken
        · apply stepFits_mode
          exact htoken
  | number numeral phase =>
    rw [step]
    cases numeral.step phase c with
    | more phase numeral => simp [StepFits, Fits]
    | ends =>
      have hnumber : (Token.number (numeral.value phase)).Fits (count + 1) := trivial
      apply stepFits_start_after hnumber c count.succ_pos
    | bad => simp [StepFits, Token.Fits]
  | string pieces =>
    have hpieces : pieces.length < count + 1 := Nat.lt_succ_of_lt h
    have hmore : pieces.length + 1 < count + 1 := Nat.succ_lt_succ h
    rw [step, stringStep]
    apply stepFits_ite
    · apply stepFits_token
      apply fits_ofPieces
      rwa [List.length_reverse]
    · apply stepFits_ite
      · apply stepFits_mode
        exact hpieces
      · apply stepFits_ite
        · apply stepFits_broken
        · apply stepFits_mode
          exact hmore
  | escape pieces =>
    have hpieces : pieces.length < count + 1 := Nat.lt_succ_of_lt h
    have hmore : pieces.length + 1 < count + 1 := Nat.succ_lt_succ h
    rw [step, escapeStep]
    apply stepFits_ite
    · apply stepFits_mode
      exact hpieces
    · cases escaped? c with
      | none => apply stepFits_broken
      | some e =>
        apply stepFits_mode
        exact hmore
  | code pieces bytes value =>
    have hpieces : pieces.length < count + 1 := Nat.lt_succ_of_lt h
    have hmore : pieces.length + 1 < count + 1 := Nat.succ_lt_succ h
    rw [step, codeStep]
    apply stepFits_ite
    · apply stepFits_mode
      exact hpieces
    · cases value.bind fun v => (hexValue? c).map (v * 16 + ·) with
      | none => apply stepFits_broken
      | some unit =>
        apply stepFits_mode
        exact hmore

theorem fits_finish (mode : Mode) (count : ℕ) :
  ∀ token ∈ mode.finish, token.Fits count
  := by
  cases mode with
  | between => simp [finish]
  | word token left => simp [finish, Token.Fits]
  | number numeral phase =>
    rw [finish]
    split <;> simp [Token.Fits]
  | string pieces | escape pieces | code pieces bytes value =>
    simp [finish, fits_ofBrokenPieces]

end Mode

/-- A string has fewer characters than the text up to its end. -/
theorem fits_scanFrom {mode : Mode} {count : ℕ} (h : mode.Fits count) (cs : List Char) :
  ∀ token ∈ scanFrom mode cs, token.Fits (count + cs.length)
  := by
  induction cs generalizing mode count with
  | nil => apply mode.fits_finish
  | cons c cs ih =>
    have hle : count + 1 ≤ count + (cs.length + 1) := by omega
    obtain ⟨htokens, hnext⟩ := Mode.stepFits_step h c
    rw [scanFrom, List.length_cons]
    split
    · next tokens next hstep =>
      rw [hstep] at htokens hnext
      intro token htoken
      rcases List.mem_append.mp htoken with hnow | hlater
      · apply (htokens token hnow).mono hle
      · apply (ih (hnext next rfl) token hlater).mono
        omega
    · next tokens hstep =>
      rw [hstep] at htokens
      exact fun token htoken => (htokens token htoken).mono hle

theorem fits_scan (text : String) :
  ∀ token ∈ scan text, token.Fits text.length
  := by
  have hbetween : Mode.between.Fits 0 := trivial
  have hscan := fits_scanFrom hbetween text.toList
  rw [Nat.zero_add, String.length_toList] at hscan
  exact hscan

end Token

namespace Document

theorem complete_eq_done_iff {doc root : Doc} {stack : List Frame} :
  State.complete doc stack = .done root ↔ stack = [] ∧ doc = root
  := by
  cases stack with
  | nil => simp [State.complete]
  | cons frame stack => cases frame <;> simp [State.complete]

theorem eq_string_of_valueStep {stack : List Frame} {token : Token} {text : String}
    (h : valueStep stack token = .ok (.done (.string (.ok text)))) :
  token = .string (.ok text)
  := by
  cases token <;>
    simp_all [valueStep, Outcome.broken, complete_eq_done_iff]

/-- Only the token of a string completes a document that is a string. -/
theorem eq_string_of_step {state : State} {token : Token} {text : String}
    (h : state.step token = .ok (.done (.string (.ok text)))) :
  token = .string (.ok text)
  := by
  cases state with
  | value stack => apply eq_string_of_valueStep h
  | firstItem stack =>
    by_cases hclose : token = .closeArray
    · subst hclose
      simp [State.step, complete_eq_done_iff] at h
    · rw [step_firstItem hclose] at h
      apply eq_string_of_valueStep h
  | nextItem items stack =>
    by_cases hclose : token = .closeArray
    · subst hclose
      cases h
    · rw [step_nextItem hclose] at h
      apply eq_string_of_valueStep h
  | firstKey stack | nextKey members stack | afterItem items stack | afterMember members stack
  | colon members key stack =>
    cases token <;> simp [State.step, keyStep, complete_eq_done_iff] at h <;> cases h
  | done root => cases h

/-- A text that is read as a string holds the token of the string. -/
theorem mem_of_ofTokensFrom {state : State} {tokens : List Token} {text : String}
    (h : ofTokensFrom state tokens = ⟨Doc.ofJson (.string text), false⟩)
    (hstate : state ≠ .done (Doc.ofJson (.string text))) :
  .string (.ok text) ∈ tokens
  := by
  induction tokens generalizing state with
  | nil =>
    rw [ofTokensFrom, Document.mk.injEq] at h
    exact absurd (eq_done_of_finish h.1) hstate
  | cons token tokens ih =>
    rw [ofTokensFrom] at h
    cases hstep : state.step token with
    | error root =>
      rw [hstep] at h
      cases h
    | ok next =>
      rw [hstep] at h
      by_cases hnext : next = .done (Doc.ofJson (.string text))
      · subst hnext
        rw [eq_string_of_step hstep]
        apply List.mem_cons_self
      · apply List.mem_cons_of_mem
        apply ih h hnext

end Document

/-- A text that is read as a string is longer than the string. -/
theorem Json.length_lt_of_ofText {source text : String} (h : ofText source = .ok (.string text)) :
  text.length < source.length
  := by
  apply Token.fits_scan source (.string (.ok text))
  apply Document.mem_of_ofTokensFrom (Json.ofText_eq_ok_iff.mp h).1
  nofun

end StructuredQuery
