/-!
# Doubles

`Double` is the set of binary64 numbers, written out as a sign, a significand and
an exponent of two, together with the infinities and the number that is none.
`ofRatio` rounds a quotient to the nearest double, a tie to the even significand;
`ofDecimal` and `ofInt` read decimal and whole numbers through it.  All of it is
arithmetic on `Nat` and `Int`.
-/

namespace StructuredQuery

namespace Double

/-- A significand and an exponent that name a double in the one way it is named:
the significand has 53 bits, or fewer at the least exponent. -/
def Canonical (significand : Nat) (exponent : Int) : Prop :=
  (0x10000000000000 ≤ significand ∧ significand < 0x20000000000000 ∧ -1074 ≤ exponent ∧ exponent ≤ 971)
    ∨ (significand < 0x10000000000000 ∧ exponent = -1074)

instance (significand : Nat) (exponent : Int) : Decidable (Canonical significand exponent) :=
  inferInstanceAs (Decidable (_ ∨ _))

theorem canonical_zero : Canonical 0 (-1074) :=
  Or.inr ⟨by decide, rfl⟩

end Double

/-- A double: plus or minus `significand * 2 ^ exponent`, an infinity, or no number. -/
inductive Double where
  | finite (negative : Bool) (significand : Nat) (exponent : Int)
      (canonical : Double.Canonical significand exponent)
  | infinite (negative : Bool)
  | nan
  deriving DecidableEq

namespace Double

/-- Zero of either sign. -/
def zero (negative : Bool) : Double :=
  .finite negative 0 (-1074) canonical_zero

/-- The double is a number: neither infinite nor `nan`. -/
def IsFinite : Double → Prop
  | .finite .. => True
  | _ => False

instance : (x : Double) → Decidable x.IsFinite
  | .finite .. => .isTrue trivial
  | .infinite _ => .isFalse id
  | .nan => .isFalse id

/-- The double is a zero of either sign. -/
def isZero : Double → Bool
  | .finite _ significand _ _ => significand = 0
  | _ => false

/-- The double is `nan`. -/
def isNaN : Double → Bool
  | .nan => true
  | _ => false

/-- Numerical equality: the two zeros are equal, and `nan` equals nothing. -/
def same (x y : Double) : Bool :=
  !x.isNaN && (x = y || (x.isZero && y.isZero))

/-! ### Rounding -/

/-- The whole number nearest to `num / den`, of two the even one. -/
def roundHalfEven (num den : Nat) : Nat :=
  let quotient := num / den
  let twice := 2 * (num % den)
  if twice < den then quotient
  else if den < twice then quotient + 1
  else quotient + quotient % 2

/-- The numerator and denominator of `num / den / base ^ power`. -/
def scaled (base num den : Nat) (power : Int) : Nat × Nat :=
  if 0 ≤ power then (num, den * base.pow power.toNat) else (num * base.pow (-power).toNat, den)

/-- The exponent at which `num / den` has a significand of 53 bits, or the least
exponent if that is greater. -/
def ratioExponent (num den : Nat) : Int :=
  let guess : Int := (num.log2 : Int) - den.log2 - 52
  let (n, d) := scaled 2 num den guess
  max (-1074) (if n < d * 0x10000000000000 then guess - 1 else guess)

/-- The double with this sign, significand and exponent; a significand that has
been rounded up to 54 bits moves to the next exponent, and one beyond the greatest
exponent is infinite. -/
def ofParts (negative : Bool) (significand : Nat) (exponent : Int) : Double :=
  if h : Canonical significand exponent then .finite negative significand exponent h
  else if h : significand = 0x20000000000000 ∧ Canonical 0x10000000000000 (exponent + 1) then
    .finite negative 0x10000000000000 (exponent + 1) h.2
  else .infinite negative

/-- The double nearest to plus or minus `num / den`. -/
def ofRatio (negative : Bool) (num den : Nat) : Double :=
  if num = 0 then zero negative
  else
    let exponent := ratioExponent num den
    let (n, d) := scaled 2 num den exponent
    ofParts negative (roundHalfEven n d) exponent

/-- The double nearest to a whole number. -/
def ofInt (value : Int) : Double :=
  ofRatio (value < 0) value.natAbs 1

/-- The number of decimal digits of a whole number. -/
def digitCount (n : Nat) : Nat :=
  (Nat.toDigits 10 n).length

/-- The double nearest to plus or minus `digits * 10 ^ exponent`.  Numbers of more
than 310 places are infinite and numbers below `10 ^ -330` are zero, so that no
great power of ten is ever formed.

The rounding is exact for all digits.  Readers of JSON that round by way of a product of
doubles, as many do unless told otherwise, only approximate it and may give a neighbour of
this double.  Round trips need of it that the shortest decimal of a double reads back as the
double (`ofDecimal_shortest`), however it is laid out (`Decimal.ofDecimal_congr`). -/
def ofDecimal (negative : Bool) (digits : Nat) (exponent : Int) : Double :=
  let places := digitCount digits + exponent
  if digits = 0 ∨ places < -330 then zero negative
  else if 310 < places then .infinite negative
  else if 0 ≤ exponent then ofRatio negative (digits * Nat.pow 10 exponent.toNat) 1
  else ofRatio negative digits (Nat.pow 10 (-exponent).toNat)

/-- The double `1.0`. -/
def one : Double :=
  .finite false 0x10000000000000 (-52) (Or.inl (by decide))

theorem isFinite_zero (negative : Bool) : (zero negative).IsFinite :=
  trivial

theorem isFinite_one : one.IsFinite :=
  trivial

end Double

end StructuredQuery
