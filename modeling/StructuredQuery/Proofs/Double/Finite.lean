import StructuredQuery.Json
import StructuredQuery.Proofs.Double.Decimal

/-!
# Numbers are finite as doubles

A quotient below `2 ^ 1023` is rounded to a finite double, and so every number of a JSON
document is a finite double: a whole number has no more than 64 bits.
-/

namespace StructuredQuery

namespace Double

theorem isFinite_ofParts (negative : Bool) {significand : ℕ} {exponent : ℤ}
    (hlow : 0x10000000000000 ≤ significand ∨ exponent = -1074)
    (hhigh : significand ≤ 0x20000000000000) (hleast : -1074 ≤ exponent)
    (hgreatest : exponent ≤ 970) :
  (ofParts negative significand exponent).IsFinite
  := by
  unfold ofParts
  split
  · trivial
  · next hcanonical =>
    split
    · trivial
    · next hcarry =>
      simp only [Canonical] at hcanonical hcarry
      omega

/-- A quotient is rounded to a finite double unless it is too great. -/
theorem isFinite_ofRatio (negative : Bool) {num den : ℕ} (hden : 0 < den)
    (h : Int.log 2 ((num : ℚ) / den) ≤ 1022) :
  (ofRatio negative num den).IsFinite
  := by
  by_cases hnum : num = 0
  · rw [ofRatio, if_pos hnum]
    apply isFinite_zero
  · have hq : (0 : ℚ) < num / den := by positivity
    rw [ofRatio_of_ne_zero negative hnum]
    have hexponent := ratioExponent_eq (Nat.pos_of_ne_zero hnum) hden
    generalize ratioExponent num den = exponent at hexponent ⊢
    have hvalue : ((scaled 2 num den exponent).1 : ℚ) / (scaled 2 num den exponent).2
        = num / den / ((2 : ℕ) : ℚ) ^ exponent := scaled_value Nat.two_pos exponent
    have hpos : 0 < (scaled 2 num den exponent).2 := scaled_pos Nat.two_pos hden exponent
    generalize (scaled 2 num den exponent).1 = n at hvalue ⊢
    generalize (scaled 2 num den exponent).2 = d at hvalue hpos ⊢
    have hpower : (0 : ℚ) < ((2 : ℕ) : ℚ) ^ exponent := zpow_pos (by norm_num) exponent
    have hd : (0 : ℚ) < d := by exact_mod_cast hpos
    -- The quotient by the unit lies between the powers of two next to 53 bits.
    have hbelow (k : ℕ) : k ≤ n / d ↔ (k : ℚ) * 2 ^ exponent ≤ num / den := by
      rw [Nat.le_div_iff_mul_le hpos, ← @Nat.cast_le ℚ, Nat.cast_mul, ← le_div_iff₀ hd, hvalue,
        le_div_iff₀ hpower, Nat.cast_ofNat]
    have hround := roundHalfEven_eq_or n d
    apply isFinite_ofParts
    · rw [or_iff_not_imp_right]
      intro hne
      have hlog : ((52 : ℕ) : ℤ) + exponent = Int.log 2 ((num : ℚ) / den) := by
        push_cast
        omega
      have hquotient : 2 ^ 52 ≤ n / d := by
        rw [hbelow, Nat.cast_pow, Nat.cast_ofNat, ← zpow_natCast, ← zpow_add₀ (by norm_num), hlog]
        exact_mod_cast Int.zpow_log_le_self (b := 2) (by norm_num) hq
      omega
    · have hquotient : ¬2 ^ 53 ≤ n / d := by
        rw [hbelow, not_le, Nat.cast_pow, Nat.cast_ofNat, ← zpow_natCast,
          ← zpow_add₀ (by norm_num)]
        have hlog := (Int.lt_zpow_iff_log_lt (b := 2) (by norm_num) hq).mpr
          (show Int.log 2 ((num : ℚ) / den) < ((53 : ℕ) : ℤ) + exponent by
            push_cast
            omega)
        exact_mod_cast hlog
      omega
    · omega
    · omega

end Double

/-- Every number is finite as a double. -/
theorem Number.isFinite_toDouble (number : Number) :
  number.toDouble.IsFinite
  := by
  cases number with
  | float value finite => apply finite
  | integer value fits =>
    apply Double.isFinite_ofRatio _ Nat.one_pos
    by_cases hzero : value.natAbs = 0
    · simp [hzero]
    · have hq : (0 : ℚ) < (value.natAbs : ℚ) / (1 : ℕ) := by positivity
      have hlog := (Int.lt_zpow_iff_log_lt (b := 2) (by norm_num) hq).mp
        (show (value.natAbs : ℚ) / (1 : ℕ) < ((2 : ℕ) : ℚ) ^ (64 : ℤ) by
          have hbound : value.natAbs < 2 ^ 64 := by omega
          rw [Nat.cast_one, div_one]
          exact_mod_cast hbound)
      omega

end StructuredQuery
