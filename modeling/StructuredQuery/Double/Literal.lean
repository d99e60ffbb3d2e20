import StructuredQuery.Double

/-!
# Doubles on the command line

`Double.ofText?` reads a double as it is given on a command line: an optional sign, then
digits with an optional point among them or at either end and an optional exponent, or
one of the words `inf`, `infinity` and `nan` in any case.
-/

namespace StructuredQuery

namespace Double

/-- The character is a decimal digit. -/
def isDigit (c : Char) : Bool :=
  '0' ≤ c && c ≤ '9'

/-- The whole number that digits name. -/
def ofDigits (digits : List Char) : Nat :=
  digits.foldl (fun n c => n * 10 + (c.toNat - '0'.toNat)) 0

/-- A sign at the front of a text, minus or not, and what follows it. -/
def splitSign : List Char → Bool × List Char
  | '-' :: text => (true, text)
  | '+' :: text => (false, text)
  | text => (false, text)

/-- The exponent that the end of a numeral names. -/
def exponent? : List Char → Option Int
  | [] => some 0
  | c :: text =>
    let (negative, digits) := splitSign text
    if (c = 'e' ∨ c = 'E') ∧ !digits.isEmpty ∧ digits.all isDigit then
      some (if negative then -(ofDigits digits : Int) else ofDigits digits)
    else none

/-- The double that a numeral without sign names. -/
def ofNumeral? (negative : Bool) (text : List Char) : Option Double :=
  let whole := text.takeWhile isDigit
  let afterWhole := text.dropWhile isDigit
  let (fraction, rest) := match afterWhole with
    | '.' :: text => (text.takeWhile isDigit, text.dropWhile isDigit)
    | text => ([], text)
  if whole.isEmpty ∧ fraction.isEmpty then none
  else
    (exponent? rest).map fun exponent =>
      ofDecimal negative (ofDigits (whole ++ fraction)) (exponent - fraction.length)

/-- The double that a text names. -/
def ofText? (text : String) : Option Double :=
  let (negative, text) := splitSign text.toList
  let word := text.map Char.toLower
  if word = "inf".toList ∨ word = "infinity".toList then some (.infinite negative)
  else if word = "nan".toList then some .nan
  else ofNumeral? negative text

end Double

end StructuredQuery
