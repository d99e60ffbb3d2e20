import Mathlib.Data.Nat.Notation
import StructuredQuery.Text.UpperCase

/-!
# Texts whose upper case is made up of capital letters

Characters beyond the letters `a` to `z` may have letters `A` to `Z` in their upper case, and
some have nothing else.  Those have an `F`, an `I` or an `S` among them.  So a text of other
letters is the upper case of its own spellings only: of the texts of the same letters, each in
either case.
-/

namespace StructuredQuery

namespace Text

variable {c : Char} {code : ℕ}

/-! ### Letters and their code points -/

theorem isUpper_iff :
  c.isUpper ↔ 0x41 ≤ c.toNat ∧ c.toNat ≤ 0x5a
  := by
  show decide ('A'.val ≤ c.val ∧ c.val ≤ 'Z'.val) = true ↔ _
  rw [decide_eq_true_iff, UInt32.le_iff_toNat_le, UInt32.le_iff_toNat_le]
  rfl

/-- A capital letter stands at its own code point only. -/
theorem toNat_ofNat_of_isUpper (h : (Char.ofNat code).isUpper) :
  (Char.ofNat code).toNat = code
  := by
  by_cases hvalid : code.isValidChar
  · have hchar : Char.ofNat code = Char.ofNatAux code hvalid := dif_pos hvalid
    rw [hchar]
    rfl
  · have hchar : Char.ofNat code = '\x00' := dif_neg hvalid
    rw [hchar] at h
    cases h

/-- In lower case a capital letter stands 32 places further on. -/
theorem toNat_toLower :
  c.toLower.toNat = if c.isUpper then c.toNat + 0x20 else c.toNat
  := by
  split
  · next hc =>
    have hlower : c.toLower = _ := dif_pos (of_decide_eq_true hc)
    have hcode := isUpper_iff.mp hc
    rw [hlower]
    show (c.toNat + 0x20) % 2 ^ 32 = c.toNat + 0x20
    exact Nat.mod_eq_of_lt (by omega)
  · next hc =>
    have hlower : c.toLower = c := dif_neg fun hrange => hc (decide_eq_true hrange)
    rw [hlower]

/-- A character that has a capital letter in lower case is the letter in either case. -/
theorem toLower_eq_toLower_iff {u : Char} (h : u.isUpper) :
  c.toLower = u.toLower ↔ c.toNat = u.toNat ∨ c.toNat = u.toNat + 0x20
  := by
  have hu := isUpper_iff.mp h
  rw [← Char.toNat_inj, toNat_toLower, toNat_toLower, if_pos h]
  split
  · next hc =>
    have := isUpper_iff.mp hc
    omega
  · next hc =>
    rw [isUpper_iff] at hc
    omega

/-! ### The tables -/

/-- A capital letter other than `F`, `I` and `S`.  A character beyond the letters whose upper case
is made up of capital letters has one of these three in it. -/
def IsOrdinary (u : Char) : Prop :=
  u.isUpper ∧ u ∉ ['F', 'I', 'S']

instance (u : Char) : Decidable (IsOrdinary u) :=
  inferInstanceAs (Decidable (_ ∧ _))

/-- The letters `a` to `z` and their upper cases. -/
def letterRun : CaseRun :=
  ⟨0x61, 0x7a, 1, 0x41⟩

/-- No expansion is that of a letter, and none has ordinary letters only. -/
theorem expansions_beyond_letters :
  ∀ entry ∈ expansions, 0x7a < entry.1 ∧ ∃ code ∈ entry.2, ¬IsOrdinary (Char.ofNat code)
  := by
  decide +kernel

/-- Beyond the letters no upper case of one character is an ordinary letter. -/
theorem caseRuns_beyond_letters :
  ∀ run ∈ caseRuns, 0x61 ≤ run.first
    ∧ (run = letterRun ∨ 0x5a < run.upper
      ∨ run.first = run.last ∧ ¬IsOrdinary (Char.ofNat run.upper))
  := by
  decide +kernel

theorem covers_iff {run : CaseRun} :
  run.covers code
    ↔ (run.first ≤ code ∧ code ≤ run.last) ∧ (code - run.first) % run.step = 0
  := by
  simp [CaseRun.covers]

theorem lookup_expansions_of_le (h : code ≤ 0x7a) :
  expansions.lookup code = none
  := by
  rw [List.lookup_eq_none_iff]
  intro entry hentry
  have hlt := (expansions_beyond_letters entry hentry).1
  rw [bne_iff_ne]
  omega

/-- What comes before the letter `a` is its own upper case. -/
theorem upperCodes_of_lt (h : code < 0x61) :
  upperCodes code = [code]
  := by
  have hruns : caseRuns.find? (·.covers code) = none := by
    rw [List.find?_eq_none]
    intro run hrun hcovers
    have hfirst := (caseRuns_beyond_letters run hrun).1
    have := (covers_iff.mp hcovers).1.1
    omega
  rw [upperCodes, lookup_expansions_of_le (by omega), hruns]

/-- The upper case of a letter is the capital letter. -/
theorem upperCodes_of_letter (h : 0x61 ≤ code ∧ code ≤ 0x7a) :
  upperCodes code = [code - 0x20]
  := by
  have hcovers : letterRun.covers code := covers_iff.mpr ⟨h, Nat.mod_one _⟩
  have hruns : caseRuns.find? (·.covers code) = some letterRun :=
    List.find?_cons_of_pos hcovers
  have himage : letterRun.image code = code - 0x20 := by
    show 0x41 + (code - 0x61) = code - 0x20
    omega
  rw [upperCodes, lookup_expansions_of_le h.2, hruns]
  simp only [himage]

/-- No expansion has ordinary letters only. -/
theorem exists_not_isOrdinary {codes : List ℕ} (h : expansions.lookup code = some codes) :
  ∃ other ∈ codes, ¬IsOrdinary (Char.ofNat other)
  := by
  obtain ⟨before, after, hentries, -⟩ := List.lookup_eq_some_iff.mp h
  exact (expansions_beyond_letters (code, codes) (by simp [hentries])).2

/-- A character of a run with an ordinary letter in upper case is the letter in lower case. -/
theorem image_add_of_find? {run : CaseRun} (hrun : caseRuns.find? (·.covers code) = some run)
    (h : IsOrdinary (Char.ofNat (run.image code))) :
  run.image code + 0x20 = code
  := by
  have hcovered := List.find?_some hrun
  have hcode := (covers_iff.mp hcovered).1
  have himage := isUpper_iff.mp h.1
  rw [toNat_ofNat_of_isUpper h.1] at himage
  obtain ⟨-, rfl | hbeyond | ⟨hsingle, hnot⟩⟩ :=
    caseRuns_beyond_letters run (List.mem_of_find?_eq_some hrun)
  · have hfirst : 0x61 ≤ code := hcode.1
    show 0x41 + (code - 0x61) + 0x20 = code
    omega
  · rw [CaseRun.image] at himage
    omega
  · have hupper : run.image code = run.upper := by
      rw [CaseRun.image]
      omega
    rw [hupper] at h
    exact absurd h hnot

/-! ### Characters -/

/-- A character with a capital letter in lower case has it in upper case. -/
theorem upper_of_toLower_eq {u : Char} (hu : u.isUpper) (h : c.toLower = u.toLower) :
  upper c = [u]
  := by
  have hcode := isUpper_iff.mp hu
  have hcodes : upperCodes c.toNat = [u.toNat] := by
    rcases (toLower_eq_toLower_iff hu).mp h with hsame | hlower
    · rw [hsame, upperCodes_of_lt (by omega)]
    · rw [hlower, upperCodes_of_letter (by omega), Nat.add_sub_cancel]
  rw [upper, hcodes, List.map_singleton, Char.ofNat_toNat]

/-- A character whose upper case has ordinary letters only is one of them, in either case. -/
theorem exists_upper_eq (h : ∀ u ∈ upper c, IsOrdinary u) :
  ∃ u, upper c = [u] ∧ c.toLower = u.toLower
  := by
  have hcodes : ∀ code ∈ upperCodes c.toNat, IsOrdinary (Char.ofNat code) :=
    List.forall_mem_map.mp h
  rw [upper]
  unfold upperCodes at hcodes ⊢
  cases hexpansion : expansions.lookup c.toNat with
  | some codes =>
    rw [hexpansion] at hcodes
    obtain ⟨code, hcode, hnot⟩ := exists_not_isOrdinary hexpansion
    exact absurd (hcodes code hcode) hnot
  | none =>
    cases hrun : caseRuns.find? (·.covers c.toNat) with
    | none => exact ⟨c, by simp, rfl⟩
    | some run =>
      simp only [hexpansion, hrun, List.mem_singleton, forall_eq] at hcodes
      refine ⟨_, rfl, (toLower_eq_toLower_iff hcodes.1).mpr (Or.inr ?_)⟩
      rw [toNat_ofNat_of_isUpper hcodes.1, image_add_of_find? hrun hcodes]

/-! ### Texts -/

/-- A text has ordinary letters for its upper case exactly if it is made up of these letters, in
either case. -/
theorem upperCase_eq_iff {text letters : List Char} (h : ∀ u ∈ letters, IsOrdinary u) :
  upperCase text = letters ↔ lowerLetters text = lowerLetters letters
  := by
  induction text generalizing letters with
  | nil =>
    simp only [upperCase, lowerLetters, List.flatMap_nil, List.map_nil, List.nil_eq,
      List.map_eq_nil_iff]
  | cons c text ih =>
    constructor
    · intro htext
      rw [upperCase, List.flatMap_cons] at htext
      subst htext
      obtain ⟨hfirst, hrest⟩ := List.forall_mem_append.mp h
      obtain ⟨u, hupper, hlower⟩ := exists_upper_eq hfirst
      have htail := (ih hrest).mp rfl
      rw [hupper, lowerLetters, List.map_cons, hlower]
      exact congrArg _ htail
    · intro hlower
      cases letters with
      | nil => cases hlower
      | cons u letters =>
        obtain ⟨hu, hletters⟩ := List.forall_mem_cons.mp h
        rw [lowerLetters, lowerLetters, List.map_cons, List.map_cons, List.cons.injEq] at hlower
        have htail := (ih hletters).mpr hlower.2
        rw [upperCase, List.flatMap_cons, upper_of_toLower_eq hu.1 hlower.1]
        exact congrArg _ htail

/-- Letters that are not ordinary stand in upper cases of other characters, alone or several. -/
example :
  upperCase ['ı', 'ſ', 'ﬂ'] = ['I', 'S', 'F', 'L']
  := by decide +kernel

end Text

end StructuredQuery
