import StructuredQuery.Json.Text
import StructuredQuery.Json.Token
import StructuredQuery.Proofs.Double.Decimal

/-!
# Reading written numbers

The text of a number, with anything behind it that does not go on a numeral, is read as
the number itself.  The scanner is followed through the parts of a numeral: the whole
part, the fraction and the exponent.
-/

namespace StructuredQuery

open Token (scanFrom)

namespace Numeral

/-! ### Single characters -/

/-- No numeral goes on with the character. -/
def Ends (c : Char) : Prop :=
  digit? c = none ∧ c ≠ '.' ∧ isMark c = false

instance (c : Char) : Decidable (Ends c) :=
  inferInstanceAs (Decidable (_ ∧ _))

/-- No numeral goes on with the text. -/
def Delimited (text : List Char) : Prop :=
  ∀ c ∈ text.head?, Ends c

@[simp]
theorem delimited_nil :
  Delimited []
  := by
  simp [Delimited]

theorem delimited_cons {c : Char} (h : Ends c) (text : List Char) :
  Delimited (c :: text)
  := by
  simpa [Delimited] using h

theorem digit?_of_isDigit {c : Char} (h : c.isDigit) :
  digit? c = some (c.toNat - '0'.toNat)
  := by
  have hrange := Char.isDigit_iff_toNat.mp h
  rw [digit?, if_pos]
  exact hrange

theorem scanFrom_more {numeral next : Numeral} {phase nextPhase : Phase} {c : Char}
    (h : numeral.step phase c = .more nextPhase next) (rest : List Char) :
  scanFrom (.number numeral phase) (c :: rest) = scanFrom (.number next nextPhase) rest
  := by
  simp [scanFrom, Token.Mode.step, h]

theorem step_ends {phase : Phase} (hphase : phase.isEnd) (numeral : Numeral) {c : Char}
    (h : Ends c) :
  numeral.step phase c = .ends
  := by
  obtain ⟨hdigit, hpoint, hmark⟩ := h
  cases phase <;> simp_all [step, afterWhole, Phase.isEnd]

/-- A numeral ends before a text that does not go it on. -/
theorem scanFrom_ends {phase : Phase} (hphase : phase.isEnd) (numeral : Numeral)
    {rest : List Char} (hrest : Delimited rest) :
  scanFrom (.number numeral phase) rest
    = .number (numeral.value phase) :: scanFrom .between rest
  := by
  cases rest with
  | nil => simp [scanFrom, Token.Mode.finish, hphase]
  | cons c rest =>
    have hc : Ends c := hrest c rfl
    simp only [scanFrom, Token.Mode.step, step_ends hphase numeral hc]
    rcases Token.Mode.start c with ⟨tokens, _ | mode⟩
    · rfl
    · rfl

/-! ### Parts of a numeral -/

/-- The whole part of a numeral: a zero alone, or digits of which the first is no zero. -/
def IsWhole (text : List Char) : Prop :=
  text = ['0'] ∨ text ≠ [] ∧ text.head? ≠ some '0' ∧ ∀ c ∈ text, c.isDigit

/-- A row of digits within one part of a numeral. -/
theorem scanFrom_digits {phase : Phase} {push : Numeral → ℕ → Numeral}
    (hpush : ∀ numeral c d, digit? c = some d →
      step numeral phase c = .more phase (push numeral d))
    {digits : List Char} (hdigits : ∀ c ∈ digits, c.isDigit) (numeral : Numeral)
    (rest : List Char) :
  scanFrom (.number numeral phase) (digits ++ rest)
    = scanFrom (.number
        (digits.foldl (fun numeral c => push numeral (c.toNat - '0'.toNat)) numeral) phase) rest
  := by
  induction digits generalizing numeral with
  | nil => rfl
  | cons c digits ih =>
    obtain ⟨hc, hrest⟩ := List.forall_mem_cons.mp hdigits
    rw [List.cons_append, scanFrom_more (hpush numeral c _ (digit?_of_isDigit hc)),
      List.foldl_cons]
    apply ih hrest

theorem foldl_push (digits : List Char) (numeral : Numeral) (places : ℕ) :
  digits.foldl (fun numeral c => numeral.push (c.toNat - '0'.toNat) places) numeral
    = { numeral with
        digits := Nat.ofDigitChars 10 digits numeral.digits
        places := numeral.places + digits.length * places }
  := by
  induction digits generalizing numeral with
  | nil => simp
  | cons c digits ih =>
    rw [List.foldl_cons, ih, Nat.ofDigitChars_cons, push, mul_comm numeral.digits,
      List.length_cons, add_mul, one_mul, add_assoc, add_comm places]

theorem foldl_pushExponent (digits : List Char) (numeral : Numeral) :
  digits.foldl (fun numeral c => numeral.pushExponent (c.toNat - '0'.toNat)) numeral
    = { numeral with exponent := Nat.ofDigitChars 10 digits numeral.exponent }
  := by
  induction digits generalizing numeral with
  | nil => rfl
  | cons c digits ih =>
    rw [List.foldl_cons, ih, Nat.ofDigitChars_cons, pushExponent, mul_comm numeral.exponent]

theorem toNat_sub_eq_zero_iff {c : Char} (hc : c.isDigit) :
  c.toNat - '0'.toNat = 0 ↔ c = '0'
  := by
  have hrange := Char.isDigit_iff_toNat.mp hc
  rw [← Char.toNat_inj]
  omega

theorem start_of_isDigit {c : Char} (hc : c.isDigit) :
  Token.Mode.start c
    = ([], some (.number ⟨false, c.toNat - '0'.toNat, 0, false, 0⟩
        (if c = '0' then .zero else .integer)))
  := by
  have hne (other : Char) (h : other.isDigit = false) : c ≠ other := by
    rintro rfl
    rw [hc] at h
    contradiction
  simp [Token.Mode.start, Token.isBlank, hne, digit?_of_isDigit hc, empty, push,
    ← toNat_sub_eq_zero_iff hc]

/-- The sign and the first digit. -/
theorem scanFrom_first (negative : Bool) {c : Char} (hc : c.isDigit) (rest : List Char) :
  scanFrom .between (Double.signChars negative ++ c :: rest)
    = scanFrom (.number ⟨negative, c.toNat - '0'.toNat, 0, false, 0⟩
        (if c = '0' then .zero else .integer)) rest
  := by
  cases negative with
  | false =>
    simp only [Double.signChars, Bool.false_eq_true, if_false, List.nil_append, scanFrom,
      Token.Mode.step, start_of_isDigit hc]
  | true =>
    have hsign : step (empty true) .sign c
        = .more (if c = '0' then .zero else .integer)
            ⟨true, c.toNat - '0'.toNat, 0, false, 0⟩ := by
      simp only [step, digit?_of_isDigit hc, toNat_sub_eq_zero_iff hc]
      simp [push, empty]
    rw [← scanFrom_more hsign]
    rfl

/-- The sign and the whole part. -/
theorem scanFrom_whole (negative : Bool) {whole : List Char} (hwhole : IsWhole whole)
    (rest : List Char) :
  ∃ phase : Phase, phase.isWhole ∧
    scanFrom .between (Double.signChars negative ++ (whole ++ rest))
      = scanFrom (.number ⟨negative, Nat.ofDigitChars 10 whole 0, 0, false, 0⟩ phase) rest
  := by
  rcases hwhole with rfl | ⟨hne, hhead, hdigits⟩
  · use .zero, rfl
    apply scanFrom_first negative (by decide)
  · cases whole with
    | nil => contradiction
    | cons c digits =>
      use .integer, rfl
      obtain ⟨hc, hrest⟩ := List.forall_mem_cons.mp hdigits
      have hzero : c ≠ '0' := by simpa using hhead
      have hpush (numeral : Numeral) (c : Char) (d : ℕ) (h : digit? c = some d) :
          step numeral .integer c = .more .integer (numeral.push d 0) := by
        simp only [step, h]
      rw [List.cons_append, scanFrom_first negative hc, if_neg hzero,
        scanFrom_digits hpush hrest, foldl_push, Nat.ofDigitChars_cons]
      simp

/-- The point and the digits after it. -/
theorem scanFrom_fraction {phase : Phase} (hphase : phase.isWhole) {fraction : List Char}
    (hne : fraction ≠ []) (hfraction : ∀ c ∈ fraction, c.isDigit) (negative : Bool)
    (digits : ℕ) (rest : List Char) :
  scanFrom (.number ⟨negative, digits, 0, false, 0⟩ phase) ('.' :: (fraction ++ rest))
    = scanFrom (.number
        ⟨negative, Nat.ofDigitChars 10 fraction digits, fraction.length, false, 0⟩ .fraction) rest
  := by
  have hpoint : step ⟨negative, digits, 0, false, 0⟩ phase '.'
      = .more .point ⟨negative, digits, 0, false, 0⟩ := by
    cases phase <;> simp_all [Phase.isWhole, step, digit?, afterWhole]
  cases fraction with
  | nil => contradiction
  | cons c fraction =>
    obtain ⟨hc, hrest⟩ := List.forall_mem_cons.mp hfraction
    have hfirst : step ⟨negative, digits, 0, false, 0⟩ .point c
        = .more .fraction (push ⟨negative, digits, 0, false, 0⟩ (c.toNat - '0'.toNat) 1) := by
      simp only [step, digit?_of_isDigit hc]
    have hpush (numeral : Numeral) (c : Char) (d : ℕ) (h : digit? c = some d) :
        step numeral .fraction c = .more .fraction (numeral.push d 1) := by
      simp only [step, h]
    rw [scanFrom_more hpoint, List.cons_append, scanFrom_more hfirst,
      scanFrom_digits hpush hrest, foldl_push, Nat.ofDigitChars_cons]
    simp [push, mul_comm, add_comm]

/-- The letter of an exponent, its sign and its digits. -/
theorem scanFrom_exponent {phase : Phase} (hphase : phase.isWhole ∨ phase = .fraction)
    (exponentNegative : Bool) {exponent : List Char} (hne : exponent ≠ [])
    (hexponent : ∀ c ∈ exponent, c.isDigit) (negative : Bool) (digits places : ℕ)
    (rest : List Char) :
  scanFrom (.number ⟨negative, digits, places, false, 0⟩ phase)
      ('e' :: (if exponentNegative then '-' else '+') :: (exponent ++ rest))
    = scanFrom (.number
        ⟨negative, digits, places, exponentNegative, Nat.ofDigitChars 10 exponent 0⟩ .exponent)
        rest
  := by
  have hmark : step ⟨negative, digits, places, false, 0⟩ phase 'e'
      = .more .mark ⟨negative, digits, places, false, 0⟩ := by
    rcases hphase with hphase | rfl
    · cases phase <;> simp_all [Phase.isWhole, step, digit?, afterWhole, isMark]
    · simp [step, digit?, isMark]
  have hsign : step ⟨negative, digits, places, false, 0⟩ .mark
      (if exponentNegative then '-' else '+')
      = .more .markSign ⟨negative, digits, places, exponentNegative, 0⟩ := by
    cases exponentNegative <;> simp [step, digit?]
  cases exponent with
  | nil => contradiction
  | cons c exponent =>
    obtain ⟨hc, hrest⟩ := List.forall_mem_cons.mp hexponent
    have hpush {phase : Phase} (hphase : phase = .markSign ∨ phase = .exponent)
        (numeral : Numeral) (c : Char) (d : ℕ) (h : digit? c = some d) :
        step numeral phase c = .more .exponent (numeral.pushExponent d) := by
      rcases hphase with rfl | rfl <;> simp only [step, h]
    rw [scanFrom_more hmark, scanFrom_more hsign, List.cons_append,
      scanFrom_more (hpush (Or.inl rfl) _ c _ (digit?_of_isDigit hc)),
      scanFrom_digits (hpush (Or.inr rfl)) hrest, foldl_pushExponent, Nat.ofDigitChars_cons]
    simp [pushExponent]

/-! ### Written digits -/

theorem isDigit_of_mem_digitChars {n : ℕ} {c : Char} (h : c ∈ Double.digitChars n) :
  c.isDigit
  := Nat.isDigit_of_mem_toDigits (by norm_num) (by norm_num) h

theorem ofDigitChars_digitChars (n : ℕ) :
  Nat.ofDigitChars 10 (Double.digitChars n) 0 = n
  := Nat.ofDigitChars_ten_toDigits

theorem digitChars_ne_nil (n : ℕ) :
  Double.digitChars n ≠ []
  := Nat.toDigits_ne_nil

theorem head?_digitChars {n : ℕ} (hn : n ≠ 0) :
  (Double.digitChars n).head? ≠ some '0'
  := by
  induction n using Nat.strongRecOn with
  | ind n ih =>
    rw [Double.digitChars]
    by_cases hlt : n < 10
    · rw [Nat.toDigits_of_lt_base hlt]
      simpa using hn
    · rw [Nat.toDigits_of_base_le (by norm_num) (by omega),
        List.head?_append_of_ne_nil _ Nat.toDigits_ne_nil]
      apply ih (n / 10) (by omega) (by omega)

/-- The digits of a whole number are the whole part of a numeral. -/
theorem isWhole_digitChars (n : ℕ) :
  IsWhole (Double.digitChars n)
  := by
  by_cases hn : n = 0
  · rw [hn]
    apply Or.inl (Nat.toDigits_zero 10)
  · exact Or.inr ⟨digitChars_ne_nil n, head?_digitChars hn, fun _ => isDigit_of_mem_digitChars⟩

/-- So are the first of the digits of a number that is not zero. -/
theorem isWhole_take_digitChars {n count : ℕ} (hn : n ≠ 0) (hcount : count ≠ 0) :
  IsWhole ((Double.digitChars n).take count)
  := by
  apply Or.inr
  refine ⟨?_, ?_, fun c hc => isDigit_of_mem_digitChars (List.mem_of_mem_take hc)⟩
  · simpa [hcount] using digitChars_ne_nil n
  · rw [List.head?_take, if_neg hcount]
    apply head?_digitChars hn

/-- A sign and a size make up a whole number. -/
theorem signed_natAbs (value : ℤ) :
  (if decide (value < 0) = true then -(value.natAbs : ℤ) else value.natAbs) = value
  := by
  split
  · next h =>
    have := of_decide_eq_true h
    omega
  · next h =>
    have := of_decide_eq_false (Bool.eq_false_iff.mpr h)
    omega

/-! ### Numerals of doubles -/

theorem value_of_not_isWhole {phase : Phase} (hphase : phase.isWhole = false)
    (numeral : Numeral) :
  numeral.value phase
    = ofDouble (Double.ofDecimal numeral.negative numeral.digits numeral.power)
  := by
  rw [value, dif_neg]
  simp [hphase]

/-- A numeral with a point. -/
theorem scanFrom_pointed (negative : Bool) {whole fraction rest : List Char}
    (hwhole : IsWhole whole) (hne : fraction ≠ []) (hfraction : ∀ c ∈ fraction, c.isDigit)
    (hrest : Delimited rest) :
  scanFrom .between (Double.signChars negative ++ (whole ++ ('.' :: (fraction ++ rest))))
    = .number (ofDouble (Double.ofDecimal negative
        (Nat.ofDigitChars 10 (whole ++ fraction) 0) (-(fraction.length : ℤ))))
      :: scanFrom .between rest
  := by
  obtain ⟨phase, hphase, hscan⟩ := scanFrom_whole negative hwhole ('.' :: (fraction ++ rest))
  rw [hscan, scanFrom_fraction hphase hne hfraction, scanFrom_ends rfl _ hrest,
    value_of_not_isWhole rfl, Nat.ofDigitChars_append]
  simp [power]

/-- The digits after the first of a numeral, with a point before them if there are any. -/
theorem scanFrom_optional_fraction {phase : Phase} (hphase : phase.isWhole)
    {fraction : List Char} (hfraction : ∀ c ∈ fraction, c.isDigit) (negative : Bool)
    (digits : ℕ) (rest : List Char) :
  ∃ next : Phase, (next.isWhole ∨ next = .fraction) ∧
    scanFrom (.number ⟨negative, digits, 0, false, 0⟩ phase)
        ((if fraction.isEmpty then [] else '.' :: fraction) ++ rest)
      = scanFrom (.number
          ⟨negative, Nat.ofDigitChars 10 fraction digits, fraction.length, false, 0⟩ next) rest
  := by
  cases fraction with
  | nil =>
    use phase, Or.inl hphase
    rfl
  | cons c fraction =>
    use .fraction, Or.inr rfl
    apply scanFrom_fraction hphase (List.cons_ne_nil c fraction) hfraction

/-- A numeral with an exponent. -/
theorem scanFrom_scientific (negative : Bool) {whole fraction rest : List Char}
    (hwhole : IsWhole whole) (hfraction : ∀ c ∈ fraction, c.isDigit)
    (exponent : ℤ) (hrest : Delimited rest) :
  scanFrom .between (Double.signChars negative ++ (whole
      ++ ((if fraction.isEmpty then [] else '.' :: fraction)
        ++ 'e' :: (if exponent < 0 then '-' else '+')
          :: (Double.digitChars exponent.natAbs ++ rest))))
    = .number (ofDouble (Double.ofDecimal negative
        (Nat.ofDigitChars 10 (whole ++ fraction) 0) (exponent - fraction.length)))
      :: scanFrom .between rest
  := by
  obtain ⟨phase, hphase, hscan⟩ := scanFrom_whole negative hwhole
    ((if fraction.isEmpty then [] else '.' :: fraction)
      ++ 'e' :: (if exponent < 0 then '-' else '+')
        :: (Double.digitChars exponent.natAbs ++ rest))
  obtain ⟨next, hnext, hscan'⟩ := scanFrom_optional_fraction hphase hfraction negative
    (Nat.ofDigitChars 10 whole 0)
    ('e' :: (if exponent < 0 then '-' else '+')
      :: (Double.digitChars exponent.natAbs ++ rest))
  have hexponent := scanFrom_exponent hnext (decide (exponent < 0))
    (digitChars_ne_nil exponent.natAbs) (fun _ => isDigit_of_mem_digitChars) negative
    (Nat.ofDigitChars 10 fraction (Nat.ofDigitChars 10 whole 0)) fraction.length rest
  simp only [decide_eq_true_eq] at hexponent
  rw [hscan, hscan', hexponent, scanFrom_ends rfl _ hrest, value_of_not_isWhole rfl,
    Nat.ofDigitChars_append]
  simp only [power, ofDigitChars_digitChars, signed_natAbs]

theorem isDigit_of_mem_replicate {count : ℕ} {c : Char} (h : c ∈ List.replicate count '0') :
  c.isDigit
  := by
  rw [List.eq_of_mem_replicate h]
  rfl

theorem isWhole_digitChars_append {n : ℕ} (hn : n ≠ 0) (count : ℕ) :
  IsWhole (Double.digitChars n ++ List.replicate count '0')
  := by
  apply Or.inr
  refine ⟨?_, ?_, ?_⟩
  · simp [digitChars_ne_nil n]
  · rw [List.head?_append_of_ne_nil _ (digitChars_ne_nil n)]
    apply head?_digitChars hn
  · intro c hc
    rcases List.mem_append.mp hc with hc | hc
    · apply isDigit_of_mem_digitChars hc
    · apply isDigit_of_mem_replicate hc

/-- Digits that all stand after the point. -/
theorem scanFrom_after_point (negative : Bool) (zeros : ℕ) {digits rest : List Char}
    (hne : digits ≠ []) (hdigits : ∀ c ∈ digits, c.isDigit) (hrest : Delimited rest) :
  scanFrom .between (Double.signChars negative
      ++ ('0' :: '.' :: List.replicate zeros '0' ++ digits ++ rest))
    = .number (ofDouble (Double.ofDecimal negative (Nat.ofDigitChars 10 digits 0)
        (-(zeros + digits.length : ℤ))))
      :: scanFrom .between rest
  := by
  have hfraction : ∀ c ∈ List.replicate zeros '0' ++ digits, c.isDigit := by
    intro c hc
    rcases List.mem_append.mp hc with hc | hc
    · apply isDigit_of_mem_replicate hc
    · apply hdigits c hc
  have hscan := scanFrom_pointed negative (Or.inl rfl) (by simp [hne]) hfraction hrest
  rw [Nat.ofDigitChars_append, Nat.ofDigitChars_append] at hscan
  simpa [Nat.ofDigitChars_cons] using hscan

/-- Digits that all stand before the point. -/
theorem scanFrom_before_point (negative : Bool) {n : ℕ} (hn : n ≠ 0) (zeros : ℕ)
    {rest : List Char} (hrest : Delimited rest) :
  scanFrom .between (Double.signChars negative
      ++ (Double.digitChars n ++ List.replicate zeros '0' ++ ['.', '0'] ++ rest))
    = .number (ofDouble (Double.ofDecimal negative n zeros)) :: scanFrom .between rest
  := by
  -- The zero after the point is a digit of the numeral too.
  have hdecimal :
      (⟨10 * (10 ^ zeros * n), -1⟩ : Double.Decimal).value
        = (⟨n, zeros⟩ : Double.Decimal).value := by
    simp only [Double.Decimal.value, zpow_natCast, zpow_neg, zpow_one]
    push_cast
    ring
  have hscan := scanFrom_pointed negative (isWhole_digitChars_append hn zeros)
    (List.cons_ne_nil '0' []) (by simp) hrest
  rw [← Double.Decimal.ofDecimal_congr negative hdecimal]
  simpa [Nat.ofDigitChars_append, Nat.ofDigitChars_cons, ofDigitChars_digitChars] using hscan

/-- Digits with the point among them. -/
theorem scanFrom_across_point (negative : Bool) {n place : ℕ} (hn : n ≠ 0) (hplace : place ≠ 0)
    (hlength : place < (Double.digitChars n).length) {rest : List Char}
    (hrest : Delimited rest) :
  scanFrom .between (Double.signChars negative
      ++ ((Double.digitChars n).take place ++ '.' :: (Double.digitChars n).drop place ++ rest))
    = .number (ofDouble (Double.ofDecimal negative n
        (-((Double.digitChars n).length - place : ℤ))))
      :: scanFrom .between rest
  := by
  have hne : (Double.digitChars n).drop place ≠ [] := by simpa using hlength
  have hfraction : ∀ c ∈ (Double.digitChars n).drop place, c.isDigit := by
    intro c hc
    apply isDigit_of_mem_digitChars (List.mem_of_mem_drop hc)
  have hscan := scanFrom_pointed negative (isWhole_take_digitChars hn hplace) hne hfraction hrest
  rw [List.take_append_drop, ofDigitChars_digitChars, List.length_drop,
    Nat.cast_sub hlength.le] at hscan
  simpa using hscan

/-- Digits that are written with a point among them or at either end. -/
theorem scanFrom_plainChars (negative : Bool) {d : Double.Decimal} (hd : d.digits ≠ 0)
    {rest : List Char} (hrest : Delimited rest) :
  scanFrom .between (Double.signChars negative
      ++ (Double.plainChars (Double.digitChars d.digits)
        ((Double.digitChars d.digits).length + d.exponent) ++ rest))
    = .number (ofDouble (Double.ofDecimal negative d.digits d.exponent))
      :: scanFrom .between rest
  := by
  generalize hplace : ((Double.digitChars d.digits).length : ℤ) + d.exponent = place
  rw [Double.plainChars]
  split
  · next hleft =>
    have hexponent :
        -((-place).toNat + (Double.digitChars d.digits).length : ℤ) = d.exponent := by omega
    rw [scanFrom_after_point negative _ (digitChars_ne_nil d.digits)
      (fun _ => isDigit_of_mem_digitChars) hrest, ofDigitChars_digitChars, hexponent]
  · split
    · next hleft hright =>
      have hexponent :
          ((place.toNat - (Double.digitChars d.digits).length : ℕ) : ℤ) = d.exponent := by omega
      rw [scanFrom_before_point negative hd _ hrest, hexponent]
    · next hleft hright =>
      have hexponent :
          -((Double.digitChars d.digits).length - place.toNat : ℤ) = d.exponent := by omega
      rw [scanFrom_across_point negative hd (by omega) (by omega) hrest, hexponent]

/-- Digits that are written with an exponent. -/
theorem scanFrom_scientificChars (negative : Bool) {d : Double.Decimal} (hd : d.digits ≠ 0)
    {rest : List Char} (hrest : Delimited rest) :
  scanFrom .between (Double.signChars negative
      ++ (Double.scientificChars (Double.digitChars d.digits)
        ((Double.digitChars d.digits).length + d.exponent - 1) ++ rest))
    = .number (ofDouble (Double.ofDecimal negative d.digits d.exponent))
      :: scanFrom .between rest
  := by
  have htake : IsWhole ((Double.digitChars d.digits).take 1) :=
    isWhole_take_digitChars hd (by norm_num)
  have hmem (c : Char) (hc : c ∈ Double.digitChars d.digits) := isDigit_of_mem_digitChars hc
  have hne := digitChars_ne_nil d.digits
  have hvalue := ofDigitChars_digitChars d.digits
  generalize Double.digitChars d.digits = digits at *
  have hpos := List.length_pos_of_ne_nil hne
  have hexponent : (digits.length : ℤ) + d.exponent - 1 - (digits.drop 1).length = d.exponent := by
    rw [List.length_drop]
    omega
  have hfraction : ∀ c ∈ digits.drop 1, c.isDigit := by
    intro c hc
    apply hmem c (List.mem_of_mem_drop hc)
  have hscan := scanFrom_scientific negative htake hfraction (digits.length + d.exponent - 1) hrest
  rw [List.take_append_drop, hvalue, hexponent] at hscan
  rw [← hscan, Double.scientificChars]
  simp only [List.append_assoc, List.cons_append]

theorem scanFrom_decimal (negative : Bool) {d : Double.Decimal} (hd : d.digits ≠ 0)
    {rest : List Char} (hrest : Delimited rest) :
  scanFrom .between (Double.signChars negative ++ (d.chars ++ rest))
    = .number (ofDouble (Double.ofDecimal negative d.digits d.exponent))
      :: scanFrom .between rest
  := by
  simp only [Double.Decimal.chars]
  split
  · apply scanFrom_plainChars negative hd hrest
  · apply scanFrom_scientificChars negative hd hrest

/-! ### Numbers -/

/-- The text of a whole number is read as that number. -/
theorem scanFrom_integer {value : ℤ}
    (fits : -0x8000000000000000 ≤ value ∧ value < 0x10000000000000000) {rest : List Char}
    (hrest : Delimited rest) :
  scanFrom .between ((Number.integer value fits).chars ++ rest)
    = .number (.ok (.integer value fits)) :: scanFrom .between rest
  := by
  obtain ⟨phase, hphase, hscan⟩ := scanFrom_whole (decide (value < 0))
    (isWhole_digitChars value.natAbs) rest
  have hend : phase.isEnd := by
    cases phase <;> simp_all [Phase.isWhole, Phase.isEnd]
  have hzero : ¬(decide (value < 0) = true ∧ value.natAbs = 0) := by
    rintro ⟨h, h'⟩
    have := of_decide_eq_true h
    omega
  rw [Number.chars, Json.integerChars, List.append_assoc, hscan, scanFrom_ends hend _ hrest,
    ofDigitChars_digitChars]
  simp only [Numeral.value, signed_natAbs]
  rw [dif_pos ⟨hphase, fits, hzero⟩]

/-- The text of a finite double is read as that double. -/
theorem scanFrom_float {value : Double} (finite : value.IsFinite) {rest : List Char}
    (hrest : Delimited rest) :
  scanFrom .between ((Number.float value finite).chars ++ rest)
    = .number (.ok (.float value finite)) :: scanFrom .between rest
  := by
  cases value with
  | finite negative significand exponent h =>
    rw [Number.chars, Double.chars, Double.magnitudeChars, List.append_assoc]
    split
    · next hzero =>
      obtain rfl := hzero
      obtain rfl : exponent = -1074 := by
        rcases h with ⟨hlow, -⟩ | ⟨-, hexponent⟩
        · norm_num at hlow
        · apply hexponent
      have hread : Double.ofDecimal negative 0 (-1) = Double.zero negative := by
        simp only [Double.ofDecimal, true_or, if_true]
      have hscan := scanFrom_pointed negative (Or.inl rfl) (List.cons_ne_nil '0' []) (by simp) hrest
      have hdigits : Nat.ofDigitChars 10 (['0'] ++ ['0']) 0 = 0 := rfl
      rw [hdigits, List.length_singleton, Nat.cast_one, hread, ofDouble,
        dif_pos (Double.isFinite_zero negative)] at hscan
      apply hscan
    · next hne =>
      have hpos := Nat.pos_of_ne_zero hne
      have hdigits := (Double.shortest_digits_pos h hpos).ne'
      rw [scanFrom_decimal negative hdigits hrest, Double.ofDecimal_shortest negative h hpos,
        ofDouble, dif_pos finite]
  | infinite negative => contradiction
  | nan => contradiction

/-- The text of a number is read as that number. -/
theorem scanFrom_number (number : Number) {rest : List Char} (hrest : Delimited rest) :
  scanFrom .between (number.chars ++ rest)
    = .number (.ok number) :: scanFrom .between rest
  := by
  cases number with
  | integer value fits => apply scanFrom_integer fits hrest
  | float value finite => apply scanFrom_float finite hrest

end Numeral

end StructuredQuery
