import StructuredQuery.Json
import StructuredQuery.Json.Flaw

/-!
# Numerals

The numbers of a JSON text, read one character at a time.  `Numeral` holds what has
been read, `Phase` says which part of the numeral that was, and `step` takes the next
character.  A numeral with neither a point nor an exponent is a whole number if it
fits into 64 bits; every other numeral is the nearest double.
-/

namespace StructuredQuery

/-- A numeral: its sign, its digits as one whole number, how many of them stand after
the point, and its exponent. -/
structure Numeral where
  negative : Bool
  digits : Nat
  places : Nat
  exponentNegative : Bool
  exponent : Nat
  deriving DecidableEq, Repr

namespace Numeral

/-- The part of a numeral that was read last. -/
inductive Phase where
  /-- The minus sign. -/
  | sign
  /-- A zero at the front. -/
  | zero
  | integer
  | point
  | fraction
  /-- The letter of the exponent. -/
  | mark
  /-- The sign of the exponent. -/
  | markSign
  | exponent
  deriving DecidableEq, Repr

/-- A numeral of which nothing but perhaps a minus sign has been read. -/
def empty (negative : Bool) : Numeral :=
  ⟨negative, 0, 0, false, 0⟩

/-- What a character does to a numeral. -/
inductive Step where
  /-- The numeral goes on. -/
  | more (phase : Phase) (numeral : Numeral)
  /-- The numeral has ended before the character. -/
  | ends
  /-- The numeral is cut short by the character. -/
  | bad
  deriving DecidableEq, Repr

/-- The value of a decimal digit. -/
def digit? (c : Char) : Option Nat :=
  if '0' ≤ c ∧ c ≤ '9' then some (c.toNat - '0'.toNat) else none

/-- One more digit before the point or after it. -/
def push (numeral : Numeral) (digit : Nat) (places : Nat) : Numeral :=
  { numeral with digits := numeral.digits * 10 + digit, places := numeral.places + places }

/-- One more digit of the exponent. -/
def pushExponent (numeral : Numeral) (digit : Nat) : Numeral :=
  { numeral with exponent := numeral.exponent * 10 + digit }

/-- The character is the letter of an exponent. -/
def isMark (c : Char) : Bool :=
  c = 'e' || c = 'E'

/-- The step past the whole part of a numeral. -/
def afterWhole (numeral : Numeral) (c : Char) : Step :=
  if c = '.' then .more .point numeral
  else if isMark c then .more .mark numeral
  else .ends

/-- What the next character does to a numeral. -/
def step (numeral : Numeral) (phase : Phase) (c : Char) : Step :=
  match phase, digit? c with
  | .sign, some d => .more (if d = 0 then .zero else .integer) (numeral.push d 0)
  | .zero, some _ => .bad
  | .integer, some d => .more .integer (numeral.push d 0)
  | .point, some d | .fraction, some d => .more .fraction (numeral.push d 1)
  | .mark, some d | .markSign, some d | .exponent, some d =>
    .more .exponent (numeral.pushExponent d)
  | .zero, none | .integer, none => numeral.afterWhole c
  | .fraction, none => if isMark c then .more .mark numeral else .ends
  | .mark, none =>
    if c = '+' then .more .markSign numeral
    else if c = '-' then .more .markSign { numeral with exponentNegative := true }
    else .bad
  | .exponent, none => .ends
  | .sign, none | .point, none | .markSign, none => .bad

/-- A numeral may end in this phase. -/
def Phase.isEnd : Phase → Bool
  | .zero | .integer | .fraction | .exponent => true
  | .sign | .point | .mark | .markSign => false

/-- A numeral that ends in this phase has neither a point nor an exponent. -/
def Phase.isWhole : Phase → Bool
  | .zero | .integer => true
  | _ => false

/-- A double as a number; one that has become infinite is too big. -/
def ofDouble (x : Double) : Except Flaw Number :=
  if h : x.IsFinite then .ok (.float x h) else .error .numberTooBig

/-- The power of ten of the last digit. -/
def power (numeral : Numeral) : Int :=
  (if numeral.exponentNegative then -(numeral.exponent : Int) else numeral.exponent)
    - numeral.places

/-- The number that a numeral names: a whole number if it can be one, else the nearest double.
A minus sign before zero needs a double.  The double is rounded exactly, as `Double.ofDecimal`
does it and other readers of JSON need not, so the text of every finite double is read as the
double itself (`scanFrom_float`). -/
def value (numeral : Numeral) (phase : Phase) : Except Flaw Number :=
  let magnitude : Int := numeral.digits
  let whole := if numeral.negative then -magnitude else magnitude
  if h : phase.isWhole ∧ (-0x8000000000000000 ≤ whole ∧ whole < 0x10000000000000000)
      ∧ ¬(numeral.negative ∧ numeral.digits = 0) then
    .ok (.integer whole h.2.1)
  else ofDouble (Double.ofDecimal numeral.negative numeral.digits numeral.power)

end Numeral

end StructuredQuery
