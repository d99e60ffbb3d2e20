import StructuredQuery.Proofs.Double.Rounding

/-!
# Reading the shortest decimal

`Double.ofDecimal` depends on the value of a decimal only, and a decimal whose value is a
double is read as that double.  The shortest decimal of a double therefore reads back,
whether the search has found it or has fallen back on the exact decimal.
-/

namespace StructuredQuery

namespace Double

/-! ### Signs -/

/-- The double of the same size with the given sign. -/
def withSign (negative : Bool) : Double → Double
  | .finite _ significand exponent h => .finite negative significand exponent h
  | .infinite _ => .infinite negative
  | .nan => .nan

theorem withSign_ofParts (negative : Bool) (significand : ℕ) (exponent : ℤ) :
  (ofParts false significand exponent).withSign negative
    = ofParts negative significand exponent
  := by
  unfold ofParts
  split
  · rfl
  · split <;> rfl

theorem withSign_ofRatio (negative : Bool) (num den : ℕ) :
  (ofRatio false num den).withSign negative = ofRatio negative num den
  := by
  by_cases hnum : num = 0
  · rw [ofRatio, ofRatio, if_pos hnum, if_pos hnum]
    rfl
  · rw [ofRatio_of_ne_zero false hnum, ofRatio_of_ne_zero negative hnum, withSign_ofParts]

theorem withSign_ofDecimal (negative : Bool) (digits : ℕ) (exponent : ℤ) :
  (ofDecimal false digits exponent).withSign negative = ofDecimal negative digits exponent
  := by
  simp only [ofDecimal]
  split
  · rfl
  · split
    · rfl
    · split
      · apply withSign_ofRatio
      · apply withSign_ofRatio

/-! ### Decimals and their values -/

theorem digitCount_eq {n : ℕ} (hn : 0 < n) :
  digitCount n = Nat.log 10 n + 1
  := by
  have hle (k : ℕ) : digitCount n ≤ k + 1 ↔ Nat.log 10 n < k + 1 := by
    rw [digitCount, Nat.length_toDigits_le_iff (by norm_num) k.succ_pos,
      Nat.log_lt_iff_lt_pow (by norm_num) hn.ne']
  have hpos : 0 < digitCount n := Nat.length_toDigits_pos
  have hlow := (hle (digitCount n - 1)).mp (by omega)
  have hhigh := (hle (Nat.log 10 n)).mpr (Nat.lt_succ_self _)
  omega

/-- The place of the first digit is read off the decimal logarithm of the value. -/
theorem digitCount_add_exponent {digits : ℕ} (hdigits : 0 < digits) (exponent : ℤ) :
  (digitCount digits : ℤ) + exponent = Int.log 10 ((digits : ℚ) * 10 ^ exponent) + 1
  := by
  have hpower : (0 : ℚ) < 10 ^ exponent := zpow_pos (by norm_num) exponent
  have hq : (0 : ℚ) < digits * 10 ^ exponent := by positivity
  have hlow : (Nat.log 10 digits : ℤ) + exponent ≤ Int.log 10 ((digits : ℚ) * 10 ^ exponent) := by
    rw [← Int.zpow_le_iff_le_log (by norm_num) hq, Nat.cast_ofNat, zpow_add₀ (by norm_num),
      zpow_natCast, mul_le_mul_iff_left₀ hpower]
    exact_mod_cast Nat.pow_log_le_self 10 hdigits.ne'
  have hhigh : Int.log 10 ((digits : ℚ) * 10 ^ exponent)
      < (Nat.log 10 digits + 1 : ℕ) + exponent := by
    rw [← Int.lt_zpow_iff_log_lt (by norm_num) hq, Nat.cast_ofNat, zpow_add₀ (by norm_num),
      zpow_natCast, mul_lt_mul_iff_left₀ hpower]
    exact_mod_cast Nat.lt_pow_succ_log_self (by norm_num) digits
  rw [digitCount_eq hdigits]
  push_cast at hhigh ⊢
  omega

/-- Reading a decimal, in terms of any quotient of its value. -/
theorem ofDecimal_of_value (negative : Bool) {digits num den : ℕ} {exponent : ℤ}
    (hdigits : 0 < digits) (hden : 0 < den)
    (hvalue : (num : ℚ) / den = digits * 10 ^ exponent) :
  ofDecimal negative digits exponent
    = if Int.log 10 ((num : ℚ) / den) < -331 then zero negative
      else if 309 < Int.log 10 ((num : ℚ) / den) then .infinite negative
      else ofRatio negative num den
  := by
  have hplaces := digitCount_add_exponent hdigits exponent
  rw [← hvalue] at hplaces
  have hratio : (if 0 ≤ exponent then ofRatio negative (digits * 10 ^ exponent.toNat) 1
      else ofRatio negative digits (10 ^ (-exponent).toNat)) = ofRatio negative num den := by
    split
    · next h =>
      obtain ⟨k, rfl⟩ := Int.eq_ofNat_of_zero_le h
      apply ofRatio_congr negative Nat.one_pos hden
      rw [hvalue]
      simp
    · next h =>
      obtain ⟨k, hk⟩ := Int.eq_ofNat_of_zero_le (show 0 ≤ -exponent by omega)
      obtain rfl : exponent = -(k : ℤ) := by omega
      apply ofRatio_congr negative (by positivity) hden
      rw [hvalue]
      simp [div_eq_mul_inv]
  simp only [ofDecimal, Nat.pow_eq, hratio, hplaces, hdigits.ne', false_or]
  congr 1
  · apply propext
    omega
  · congr 1
    apply propext
    omega

theorem ratio_pos (significand : ℕ) (exponent : ℤ) :
  0 < (ratio significand exponent).2
  := by
  rw [ratio]
  split
  · apply Nat.one_pos
  · apply Nat.pow_pos Nat.two_pos

theorem ratio_value (significand : ℕ) (exponent : ℤ) :
  ((ratio significand exponent).1 : ℚ) / (ratio significand exponent).2
    = significand * 2 ^ exponent
  := by
  rw [ratio]
  split
  · next h =>
    obtain ⟨k, rfl⟩ := Int.eq_ofNat_of_zero_le h
    simp
  · next h =>
    obtain ⟨k, hk⟩ := Int.eq_ofNat_of_zero_le (show 0 ≤ -exponent by omega)
    obtain rfl : exponent = -(k : ℤ) := by omega
    simp [div_eq_mul_inv]

/-! ### Bounds of doubles -/

theorem two_pow_le_ten_pow_small :
  (2 : ℚ) ^ (1074 : ℤ) ≤ 10 ^ (331 : ℤ)
  := by
  calc (2 : ℚ) ^ (1074 : ℤ)
      ≤ 2 ^ ((13 * 82 + 9 : ℕ) : ℤ) := by
        apply zpow_le_zpow_right₀ (by norm_num) (by norm_num)
    _ = (2 ^ 13) ^ 82 * 2 ^ 9 := by
        rw [zpow_natCast, pow_add, pow_mul]
    _ ≤ (10 ^ 4) ^ 82 * 10 ^ 3 := by
        gcongr <;> norm_num
    _ = 10 ^ ((4 * 82 + 3 : ℕ) : ℤ) := by
        rw [zpow_natCast, pow_add, pow_mul]
    _ ≤ 10 ^ (331 : ℤ) := by
        apply zpow_le_zpow_right₀ (by norm_num) (by norm_num)

theorem two_pow_le_ten_pow_great :
  (2 : ℚ) ^ (1024 : ℤ) ≤ 10 ^ (310 : ℤ)
  := by
  calc (2 : ℚ) ^ (1024 : ℤ)
      ≤ 2 ^ ((93 * 11 + 6 : ℕ) : ℤ) := by
        apply zpow_le_zpow_right₀ (by norm_num) (by norm_num)
    _ = (2 ^ 93) ^ 11 * 2 ^ 6 := by
        rw [zpow_natCast, pow_add, pow_mul]
    _ ≤ (10 ^ 28) ^ 11 * 10 ^ 2 := by
        gcongr <;> norm_num
    _ = 10 ^ ((28 * 11 + 2 : ℕ) : ℤ) := by
        rw [zpow_natCast, pow_add, pow_mul]
    _ ≤ 10 ^ (310 : ℤ) := by
        apply zpow_le_zpow_right₀ (by norm_num) (by norm_num)

/-- The decimal logarithm of a double lies between the limits of `ofDecimal`. -/
theorem log_ten_bounds {significand : ℕ} {exponent : ℤ} (h : Canonical significand exponent)
    (hpos : 0 < significand) :
  -331 ≤ Int.log 10 ((significand : ℚ) * 2 ^ exponent)
    ∧ Int.log 10 ((significand : ℚ) * 2 ^ exponent) ≤ 309
  := by
  have hpower : (0 : ℚ) < 2 ^ exponent := zpow_pos (by norm_num) exponent
  have hq : (0 : ℚ) < significand * 2 ^ exponent := by positivity
  have hexponent : -1074 ≤ exponent ∧ exponent ≤ 971 := by
    rcases h with ⟨-, -, hlow, hhigh⟩ | ⟨-, rfl⟩
    · use hlow
    · norm_num
  have hsignificand : significand < 2 ^ 53 := by
    rcases h with ⟨-, hhigh, -, -⟩ | ⟨hhigh, -⟩
    · apply hhigh
    · omega
  constructor
  · rw [← Int.zpow_le_iff_le_log (by norm_num) hq, Nat.cast_ofNat]
    calc (10 : ℚ) ^ (-331 : ℤ)
        ≤ 2 ^ (-1074 : ℤ) := by
          rw [zpow_neg, zpow_neg]
          apply inv_anti₀ (zpow_pos (by norm_num) _) two_pow_le_ten_pow_small
      _ ≤ 1 * 2 ^ exponent := by
          rw [one_mul]
          apply zpow_le_zpow_right₀ (by norm_num) hexponent.1
      _ ≤ significand * 2 ^ exponent := by
          rw [mul_le_mul_iff_left₀ hpower]
          exact_mod_cast hpos
  · rw [← Int.lt_add_one_iff, ← Int.lt_zpow_iff_log_lt (by norm_num) hq, Nat.cast_ofNat]
    calc (significand : ℚ) * 2 ^ exponent
        < 2 ^ (53 : ℤ) * 2 ^ exponent := by
          rw [mul_lt_mul_iff_left₀ hpower]
          exact_mod_cast hsignificand
      _ ≤ 2 ^ (1024 : ℤ) := by
          rw [← zpow_add₀ (by norm_num)]
          apply zpow_le_zpow_right₀ (by norm_num) (by omega)
      _ ≤ 10 ^ (309 + 1 : ℤ) := two_pow_le_ten_pow_great

/-- A decimal whose value is a double is read as that double. -/
theorem ofDecimal_of_canonical (negative : Bool) {digits significand : ℕ} {place exponent : ℤ}
    (h : Canonical significand exponent) (hpos : 0 < significand)
    (hvalue : (digits : ℚ) * 10 ^ place = significand * 2 ^ exponent) :
  ofDecimal negative digits place = .finite negative significand exponent h
  := by
  have hpower : (0 : ℚ) < 2 ^ exponent := zpow_pos (by norm_num) exponent
  have hq : (0 : ℚ) < significand * 2 ^ exponent := by positivity
  have hdigits : 0 < digits := by
    apply Nat.pos_of_ne_zero
    rintro rfl
    rw [Nat.cast_zero, zero_mul] at hvalue
    apply hq.ne hvalue
  obtain ⟨hlow, hhigh⟩ := log_ten_bounds h hpos
  have hratio := ratio_value significand exponent
  rw [ofDecimal_of_value negative hdigits (ratio_pos significand exponent)
    (hratio.trans hvalue.symm), hratio, if_neg (by omega), if_neg (by omega)]
  apply ofRatio_of_canonical negative h hpos (ratio_pos significand exponent) hratio

/-! ### The shortest decimal -/

namespace Decimal

/-- The number that a decimal names. -/
def value (d : Decimal) : ℚ :=
  d.digits * 10 ^ d.exponent

theorem value_eq_zero_iff {d : Decimal} :
  d.value = 0 ↔ d.digits = 0
  := by
  have hpower : (10 : ℚ) ^ d.exponent ≠ 0 := zpow_ne_zero _ (by norm_num)
  rw [value, mul_eq_zero_iff_right hpower, Nat.cast_eq_zero]

theorem value_dropZeros (places : ℕ) (d : Decimal) :
  (dropZeros places d).value = d.value
  := by
  induction places generalizing d with
  | zero => rfl
  | succ places ih =>
    rw [dropZeros]
    split
    · next h =>
      obtain ⟨k, hk⟩ := Nat.dvd_of_mod_eq_zero h
      rw [ih, value, value, hk, Nat.mul_div_cancel_left k (by norm_num),
        zpow_add_one₀ (by norm_num)]
      push_cast
      ring
    · rfl

theorem value_exact (significand : ℕ) (exponent : ℤ) :
  (exact significand exponent).value = significand * 2 ^ exponent
  := by
  rw [exact]
  split
  · next h =>
    obtain ⟨k, rfl⟩ := Int.eq_ofNat_of_zero_le h
    simp [value]
  · next h =>
    obtain ⟨k, hk⟩ := Int.eq_ofNat_of_zero_le (show 0 ≤ -exponent by omega)
    obtain rfl : exponent = -(k : ℤ) := by omega
    have hten : (10 : ℚ) ^ k = 5 ^ k * 2 ^ k := by
      rw [← mul_pow]
      norm_num
    simp only [value, neg_neg, Int.toNat_natCast, Nat.pow_eq, Nat.cast_mul, Nat.cast_pow,
      Nat.cast_ofNat, zpow_neg, zpow_natCast, hten]
    field_simp

/-- How a decimal is read depends on its value. -/
theorem ofDecimal_congr (negative : Bool) {d d' : Decimal} (h : d.value = d'.value) :
  ofDecimal negative d.digits d.exponent = ofDecimal negative d'.digits d'.exponent
  := by
  by_cases hdigits : d.digits = 0
  · have hdigits' : d'.digits = 0 := by rwa [← value_eq_zero_iff, ← h, value_eq_zero_iff]
    simp only [ofDecimal, hdigits, hdigits', true_or, if_true]
  · have hdigits' : d'.digits ≠ 0 := by rwa [ne_eq, ← value_eq_zero_iff, ← h, value_eq_zero_iff]
    have hden : 0 < (scaled 10 d.digits 1 (-d.exponent)).2 :=
      scaled_pos (by norm_num) Nat.one_pos (-d.exponent)
    have hvalue : ((scaled 10 d.digits 1 (-d.exponent)).1 : ℚ)
        / (scaled 10 d.digits 1 (-d.exponent)).2 = d.value := by
      rw [scaled_value (by norm_num), value]
      simp
    rw [ofDecimal_of_value negative (Nat.pos_of_ne_zero hdigits) hden hvalue,
      ofDecimal_of_value negative (Nat.pos_of_ne_zero hdigits') hden (hvalue.trans h)]

theorem reads_iff {d : Decimal} {x : Double} :
  d.reads x = true ↔ ofDecimal false d.digits d.exponent = x
  := decide_eq_true_iff

end Decimal

theorem roundHalfEven_eq_or (num den : ℕ) :
  roundHalfEven num den = num / den ∨ roundHalfEven num den = num / den + 1
  := by
  simp only [roundHalfEven]
  split
  · apply Or.inl rfl
  · split
    · apply Or.inr rfl
    · rcases Nat.mod_two_eq_zero_or_one (num / den) with h | h
      · rw [h]
        apply Or.inl rfl
      · rw [h]
        apply Or.inr rfl

/-- What the search finds reads back. -/
theorem reads_of_nearest? {num den count : ℕ} {d : Decimal}
    (h : nearest? num den count = some d) :
  d.reads (ofRatio false num den) = true
  := by
  simp only [nearest?] at h
  generalize pointPlace num den - count = exponent at h
  generalize ofRatio false num den = x at h ⊢
  generalize (scaled 10 num den exponent).1 = n at h
  generalize (scaled 10 num den exponent).2 = m at h
  split at h
  · next hbelow habove =>
    obtain rfl := Option.some.inj h
    rcases roundHalfEven_eq_or n m with hround | hround
    · rw [hround]
      apply hbelow
    · rw [hround]
      apply habove
  · next hbelow _ =>
    obtain rfl := Option.some.inj h
    apply hbelow
  · next _ habove =>
    obtain rfl := Option.some.inj h
    apply habove
  · contradiction

/-- The shortest decimal of a positive double reads back. -/
theorem ofDecimal_false_shortest {significand : ℕ} {exponent : ℤ}
    (h : Canonical significand exponent) (hpos : 0 < significand) :
  ofDecimal false (shortest significand exponent).digits (shortest significand exponent).exponent
    = .finite false significand exponent h
  := by
  rw [shortest, Decimal.ofDecimal_congr false (Decimal.value_dropZeros 17 _)]
  cases hfound : (List.range 17).findSome? fun i =>
    nearest? (ratio significand exponent).1 (ratio significand exponent).2 (i + 1) with
  | none => exact ofDecimal_of_canonical false h hpos (Decimal.value_exact significand exponent)
  | some d =>
    obtain ⟨i, -, hnearest⟩ := List.exists_of_findSome?_eq_some hfound
    rw [Option.getD_some, Decimal.reads_iff.mp (reads_of_nearest? hnearest)]
    apply ofRatio_of_canonical false h hpos (ratio_pos significand exponent)
      (ratio_value significand exponent)

/-- The shortest decimal of a double reads back with its sign. -/
theorem ofDecimal_shortest (negative : Bool) {significand : ℕ} {exponent : ℤ}
    (h : Canonical significand exponent) (hpos : 0 < significand) :
  ofDecimal negative (shortest significand exponent).digits
      (shortest significand exponent).exponent
    = .finite negative significand exponent h
  := by
  rw [← withSign_ofDecimal, ofDecimal_false_shortest h hpos]
  rfl

theorem shortest_digits_pos {significand : ℕ} {exponent : ℤ}
    (h : Canonical significand exponent) (hpos : 0 < significand) :
  0 < (shortest significand exponent).digits
  := by
  apply Nat.pos_of_ne_zero
  intro hzero
  have hread := ofDecimal_false_shortest h hpos
  simp only [ofDecimal, hzero, true_or, if_true, zero, finite.injEq] at hread
  omega

end Double

end StructuredQuery
