import StructuredQuery.Double

/-!
# The shortest decimal of a double

`shortest` finds the decimal with the fewest digits that reads back as a given
double, and of those the nearest to it.  It tries one digit, two digits and so on,
each time the two decimals of that many digits next to the double, and lets
`ofDecimal` say whether they read back.  `text` lays the digits out: plainly from
`10 ^ -5` up to `10 ^ 16`, with an exponent elsewhere.
-/

namespace StructuredQuery

namespace Double

/-- A decimal `digits * 10 ^ exponent`. -/
structure Decimal where
  digits : Nat
  exponent : Int
  deriving DecidableEq, Repr

namespace Decimal

/-- The decimal reads as the double `x`. -/
def reads (d : Decimal) (x : Double) : Bool :=
  ofDecimal false d.digits d.exponent = x

/-- Zeros at the end of the digits move into the exponent. -/
def dropZeros : Nat → Decimal → Decimal
  | 0, d => d
  | places + 1, d =>
    if d.digits % 10 = 0 then dropZeros places ⟨d.digits / 10, d.exponent + 1⟩ else d

end Decimal

/-- The place of the point in `num / den`: the least `k` with `num / den < 10 ^ k`. -/
def pointPlace (num den : Nat) : Int :=
  let guess : Int := (digitCount num : Int) - digitCount den
  let (n, d) := scaled 10 num den guess
  if d ≤ n then guess + 1 else guess

/-- The decimal of `count` digits that reads back as `num / den` and is nearest to
it, the even one of two at the same distance. -/
def nearest? (num den count : Nat) : Option Decimal :=
  let exponent := pointPlace num den - count
  let (n, d) := scaled 10 num den exponent
  let below : Decimal := ⟨n / d, exponent⟩
  let above : Decimal := ⟨n / d + 1, exponent⟩
  let x := ofRatio false num den
  match below.reads x, above.reads x with
  | true, true => some ⟨roundHalfEven n d, exponent⟩
  | true, false => some below
  | false, true => some above
  | false, false => none

/-- The numerator and denominator of `significand * 2 ^ exponent`. -/
def ratio (significand : Nat) (exponent : Int) : Nat × Nat :=
  if 0 ≤ exponent then (significand * Nat.pow 2 exponent.toNat, 1)
  else (significand, Nat.pow 2 (-exponent).toNat)

/-- The decimal that equals `significand * 2 ^ exponent`. -/
def exact (significand : Nat) (exponent : Int) : Decimal :=
  if 0 ≤ exponent then ⟨significand * Nat.pow 2 exponent.toNat, 0⟩
  else ⟨significand * Nat.pow 5 (-exponent).toNat, exponent⟩

/-- The decimal with the fewest digits that reads back as `significand * 2 ^ exponent`.
Seventeen digits always do, so the exact decimal is never needed. -/
def shortest (significand : Nat) (exponent : Int) : Decimal :=
  let (num, den) := ratio significand exponent
  let found := (List.range 17).findSome? fun i => nearest? num den (i + 1)
  (found.getD (exact significand exponent)).dropZeros 17

/-! ### Layout -/

/-- The decimal digits of a whole number. -/
def digitChars (n : Nat) : List Char :=
  Nat.toDigits 10 n

/-- A decimal whose first digit stands at `10 ^ lead` is written without an exponent. -/
def isPlain (lead : Int) : Bool :=
  -5 ≤ lead && lead < 16

/-- Digits with the point after `place` of them, and a digit on either side of it. -/
def plainChars (digits : List Char) (place : Int) : List Char :=
  if place ≤ 0 then '0' :: '.' :: List.replicate (-place).toNat '0' ++ digits
  else if digits.length ≤ place.toNat then
    digits ++ List.replicate (place.toNat - digits.length) '0' ++ ['.', '0']
  else digits.take place.toNat ++ '.' :: digits.drop place.toNat

/-- Digits with the point after the first of them and an exponent with its sign. -/
def scientificChars (digits : List Char) (lead : Int) : List Char :=
  let fraction := digits.drop 1
  digits.take 1 ++ (if fraction.isEmpty then [] else '.' :: fraction)
    ++ 'e' :: (if lead < 0 then '-' else '+') :: digitChars lead.natAbs

/-- The text of a decimal. -/
def Decimal.chars (d : Decimal) : List Char :=
  let digits := digitChars d.digits
  let place := digits.length + d.exponent
  if isPlain (place - 1) then plainChars digits place else scientificChars digits (place - 1)

/-- The text of `significand * 2 ^ exponent`. -/
def magnitudeChars (significand : Nat) (exponent : Int) : List Char :=
  if significand = 0 then ['0', '.', '0'] else (shortest significand exponent).chars

/-- A minus sign before a negative number. -/
def signChars (negative : Bool) : List Char :=
  if negative then ['-'] else []

/-- The text of a double. -/
def chars : Double → List Char
  | .finite negative significand exponent _ =>
    signChars negative ++ magnitudeChars significand exponent
  | .infinite negative => signChars negative ++ ['i', 'n', 'f']
  | .nan => ['N', 'a', 'N']

end Double

end StructuredQuery
