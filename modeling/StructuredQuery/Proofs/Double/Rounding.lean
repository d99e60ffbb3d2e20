import Mathlib.Data.Int.Log
import Mathlib.Data.Rat.Floor
import Mathlib.Tactic.FieldSimp
import Mathlib.Tactic.Linarith
import Mathlib.Tactic.Positivity
import Mathlib.Tactic.Ring
import StructuredQuery.Double.Shortest

/-!
# Rounding depends on the value

`Double.ofRatio` gives the same double for any two quotients of the same value, and a
quotient whose value is a double gives that double.  The exponent of the result is read
off the binary logarithm of the value, and the significand off its quotient by a power of
two.
-/

namespace StructuredQuery

namespace Double

/-! ### Rounding to whole numbers -/

theorem roundHalfEven_mul_right (n d : ℕ) {c : ℕ} (hc : 0 < c) :
  roundHalfEven (n * c) (d * c) = roundHalfEven n d
  := by
  have hlow : 2 * (n % d * c) < d * c ↔ 2 * (n % d) < d := by
    rw [← mul_assoc]
    apply Nat.mul_lt_mul_right hc
  have hhigh : d * c < 2 * (n % d * c) ↔ d < 2 * (n % d) := by
    rw [← mul_assoc]
    apply Nat.mul_lt_mul_right hc
  simp only [roundHalfEven, Nat.mul_div_mul_right n d hc, Nat.mul_mod_mul_right, hlow, hhigh]

/-- Rounding to a whole number depends on the value of the quotient. -/
theorem roundHalfEven_congr {n d n' d' : ℕ} (hd : 0 < d) (hd' : 0 < d')
    (h : (n : ℚ) / d = n' / d') :
  roundHalfEven n d = roundHalfEven n' d'
  := by
  have hcross : n * d' = n' * d := by
    rw [div_eq_div_iff (by positivity) (by positivity)] at h
    exact_mod_cast h
  rw [← roundHalfEven_mul_right n d hd', hcross, mul_comm d, roundHalfEven_mul_right n' d' hd]

theorem roundHalfEven_one (n : ℕ) :
  roundHalfEven n 1 = n
  := by
  simp [roundHalfEven, Nat.mod_one]

/-! ### The exponent -/

theorem scaled_pos {base num den : ℕ} (hbase : 0 < base) (hden : 0 < den) (power : ℤ) :
  0 < (scaled base num den power).2
  := by
  rw [scaled, Nat.pow_eq]
  split
  · positivity
  · exact hden

/-- Scaling divides the value by a power of the base. -/
theorem scaled_value {base num den : ℕ} (hbase : 0 < base) (power : ℤ) :
  ((scaled base num den power).1 : ℚ) / (scaled base num den power).2
    = num / den / (base : ℚ) ^ power
  := by
  have hne : (base : ℚ) ≠ 0 := by positivity
  rw [scaled]
  split
  · next h =>
    obtain ⟨k, rfl⟩ := Int.eq_ofNat_of_zero_le h
    simp [div_div]
  · next h =>
    obtain ⟨k, hk⟩ := Int.eq_ofNat_of_zero_le (show 0 ≤ -power by omega)
    obtain rfl : power = -(k : ℤ) := by omega
    simp only [neg_neg, Int.toNat_natCast, Nat.pow_eq, Nat.cast_mul, Nat.cast_pow, zpow_neg,
      zpow_natCast, div_inv_eq_mul]
    ring

/-- The binary logarithm of a quotient is one of two neighbours. -/
theorem log_ratio_bounds {num den : ℕ} (hnum : 0 < num) (hden : 0 < den) :
  (num.log2 : ℤ) - den.log2 - 1 ≤ Int.log 2 ((num : ℚ) / den)
    ∧ Int.log 2 ((num : ℚ) / den) ≤ (num.log2 : ℤ) - den.log2
  := by
  have hq : (0 : ℚ) < num / den := by positivity
  have hnum_low : (2 : ℚ) ^ num.log2 ≤ num := by
    exact_mod_cast Nat.log2_self_le hnum.ne'
  have hnum_high : (num : ℚ) < 2 ^ (num.log2 + 1) := by
    exact_mod_cast Nat.lt_log2_self
  have hden_low : (2 : ℚ) ^ den.log2 ≤ den := by
    exact_mod_cast Nat.log2_self_le hden.ne'
  have hden_high : (den : ℚ) < 2 ^ (den.log2 + 1) := by
    exact_mod_cast Nat.lt_log2_self
  constructor
  · rw [← Int.zpow_le_iff_le_log (by norm_num) hq]
    calc ((2 : ℕ) : ℚ) ^ ((num.log2 : ℤ) - den.log2 - 1)
        = 2 ^ num.log2 / 2 ^ (den.log2 + 1) := by
          rw [Nat.cast_ofNat, sub_sub, zpow_sub₀ (by norm_num), zpow_natCast]
          norm_cast
      _ ≤ num / den := by
          apply div_le_div₀ (by positivity) hnum_low (by positivity) hden_high.le
  · rw [← Int.lt_add_one_iff, ← Int.lt_zpow_iff_log_lt (by norm_num) hq]
    calc (num : ℚ) / den
        < 2 ^ (num.log2 + 1) / 2 ^ den.log2 := by
          apply div_lt_div₀ hnum_high hden_low (by positivity) (by positivity)
      _ = ((2 : ℕ) : ℚ) ^ ((num.log2 : ℤ) - den.log2 + 1) := by
          rw [Nat.cast_ofNat, sub_add_eq_add_sub, zpow_sub₀ (by norm_num), zpow_natCast]
          norm_cast

/-- The exponent of a quotient is read off the binary logarithm of its value. -/
theorem ratioExponent_eq {num den : ℕ} (hnum : 0 < num) (hden : 0 < den) :
  ratioExponent num den = max (-1074) (Int.log 2 ((num : ℚ) / den) - 52)
  := by
  have hq : (0 : ℚ) < num / den := by positivity
  obtain ⟨hlow, hhigh⟩ := log_ratio_bounds hnum hden
  simp only [ratioExponent]
  generalize hguess : (num.log2 : ℤ) - den.log2 - 52 = guess
  have hpos : (0 : ℚ) < (scaled 2 num den guess).2 := by
    exact_mod_cast scaled_pos Nat.two_pos hden guess
  have hvalue : ((scaled 2 num den guess).1 : ℚ) / (scaled 2 num den guess).2
      = num / den / ((2 : ℕ) : ℚ) ^ guess := scaled_value (by norm_num) guess
  have htest : (scaled 2 num den guess).1 < (scaled 2 num den guess).2 * 2 ^ 52
      ↔ Int.log 2 ((num : ℚ) / den) < guess + 52 := by
    have hpower : (0 : ℚ) < ((2 : ℕ) : ℚ) ^ guess := zpow_pos (by norm_num) guess
    rw [← Int.lt_zpow_iff_log_lt (by norm_num) hq, zpow_add₀ (by norm_num),
      mul_comm (((2 : ℕ) : ℚ) ^ guess), ← div_lt_iff₀ hpower, ← hvalue, div_lt_iff₀ hpos, mul_comm]
    norm_cast
  congr 1
  split
  · next h =>
    have := htest.mp h
    omega
  · next h =>
    have := mt htest.mpr h
    omega

/-! ### Rounding of quotients -/

-- The pair and the exponent are variables here, for once they are not, comparing the two
-- sides unfolds the arithmetic on them.
theorem ofRatio_of_scaled (negative : Bool) {num den n d : ℕ} {exponent : ℤ} (hnum : num ≠ 0)
    (hexponent : ratioExponent num den = exponent) (h : scaled 2 num den exponent = (n, d)) :
  ofRatio negative num den = ofParts negative (roundHalfEven n d) exponent
  := by
  unfold ofRatio
  rw [if_neg hnum, hexponent]
  dsimp only
  rw [h]

theorem ofRatio_of_ne_zero (negative : Bool) {num : ℕ} (hnum : num ≠ 0) (den : ℕ) :
  ofRatio negative num den
    = ofParts negative
        (roundHalfEven (scaled 2 num den (ratioExponent num den)).1
          (scaled 2 num den (ratioExponent num den)).2)
        (ratioExponent num den)
  := ofRatio_of_scaled negative hnum rfl (Prod.eta _).symm

/-- Rounding depends on the value of the quotient. -/
theorem ofRatio_congr (negative : Bool) {num den num' den' : ℕ} (hden : 0 < den)
    (hden' : 0 < den') (h : (num : ℚ) / den = num' / den') :
  ofRatio negative num den = ofRatio negative num' den'
  := by
  have hzero : num = 0 ↔ num' = 0 := by
    rw [div_eq_div_iff (by positivity) (by positivity)] at h
    have hcross : num * den' = num' * den := by exact_mod_cast h
    constructor
    · rintro rfl
      simpa [hden.ne'] using hcross.symm
    · rintro rfl
      simpa [hden'.ne'] using hcross
  by_cases hnum : num = 0
  · rw [hnum, hzero.mp hnum, ofRatio, ofRatio, if_pos rfl, if_pos rfl]
  · have hnum' := mt hzero.mpr hnum
    have hexponent : ratioExponent num den = ratioExponent num' den' := by
      rw [ratioExponent_eq (Nat.pos_of_ne_zero hnum) hden,
        ratioExponent_eq (Nat.pos_of_ne_zero hnum') hden', h]
    rw [ofRatio_of_ne_zero negative hnum, ofRatio_of_ne_zero negative hnum', hexponent,
      roundHalfEven_congr (scaled_pos Nat.two_pos hden _) (scaled_pos Nat.two_pos hden' _)]
    rw [scaled_value Nat.two_pos, scaled_value Nat.two_pos, h]

/-- The exponent of a quotient whose value is a double is that of the double. -/
theorem ratioExponent_of_canonical {num den significand : ℕ} {exponent : ℤ}
    (h : Canonical significand exponent) (hpos : 0 < significand) (hden : 0 < den)
    (hvalue : (num : ℚ) / den = significand * 2 ^ exponent) :
  ratioExponent num den = exponent
  := by
  have hpower : (0 : ℚ) < 2 ^ exponent := zpow_pos (by norm_num) exponent
  have hq : (0 : ℚ) < significand * 2 ^ exponent := by positivity
  have hnum : 0 < num := by
    apply Nat.pos_of_ne_zero
    rintro rfl
    rw [Nat.cast_zero, zero_div] at hvalue
    exact hq.ne hvalue
  have hlog (k : ℕ) : Int.log 2 ((significand : ℚ) * 2 ^ exponent) < exponent + k
      ↔ significand < 2 ^ k := by
    rw [← Int.lt_zpow_iff_log_lt (by norm_num) hq, Nat.cast_ofNat, zpow_add₀ (by norm_num),
      mul_comm, mul_lt_mul_iff_right₀ hpower, zpow_natCast]
    norm_cast
  rw [ratioExponent_eq hnum hden, hvalue]
  rcases h with ⟨hlow, hhigh, hleast, -⟩ | ⟨hlow, hleast⟩
  · have hbelow := mt (hlog 52).mp (by omega)
    have habove := (hlog 53).mpr hhigh
    push_cast at hbelow habove
    omega
  · have habove := (hlog 52).mpr hlow
    push_cast at habove
    omega

/-- A quotient whose value is a double is rounded to that double. -/
theorem ofRatio_of_canonical (negative : Bool) {num den significand : ℕ} {exponent : ℤ}
    (h : Canonical significand exponent) (hpos : 0 < significand) (hden : 0 < den)
    (hvalue : (num : ℚ) / den = significand * 2 ^ exponent) :
  ofRatio negative num den = .finite negative significand exponent h
  := by
  have hpower : (0 : ℚ) < 2 ^ exponent := zpow_pos (by norm_num) exponent
  have hq : (0 : ℚ) < significand * 2 ^ exponent := by positivity
  have hexponent := ratioExponent_of_canonical h hpos hden hvalue
  have hnum : num ≠ 0 := by
    rintro rfl
    rw [Nat.cast_zero, zero_div] at hvalue
    exact hq.ne hvalue
  have hsignificand :
      roundHalfEven (scaled 2 num den exponent).1 (scaled 2 num den exponent).2 = significand := by
    rw [roundHalfEven_congr (scaled_pos Nat.two_pos hden _) Nat.one_pos,
      roundHalfEven_one significand]
    rw [scaled_value Nat.two_pos, hvalue, Nat.cast_ofNat, mul_div_assoc, div_self hpower.ne',
      Nat.cast_one, mul_one, div_one]
  rw [ofRatio_of_ne_zero negative hnum, hexponent, hsignificand, ofParts, dif_pos h]

end Double

end StructuredQuery
