/-!
# Flaws of a JSON text

`Flaw` lists what can be wrong with a text that should be JSON, each with its
message.  A part of a text is read in one of two ways: for its value, or over it,
when nobody asks for the value.  Reading over is more lenient, and in a few places it
names another flaw; `Break` holds both.
-/

namespace StructuredQuery

/-- What is wrong with a text at some place. -/
inductive Flaw where
  /-- The text ends where a value must stand. -/
  | endOfValue
  /-- The text ends inside an array. -/
  | endOfList
  /-- The text ends inside an object. -/
  | endOfObject
  /-- The text ends inside a string. -/
  | endOfString
  | valueExpected
  | wordExpected
  | colonExpected
  | itemExpected
  | memberExpected
  | keyExpected
  | trailingComma
  | trailingText
  | badNumber
  | numberTooBig
  /-- A backslash before a character that it does not escape. -/
  | badEscape
  /-- An escape of a code whose digits are none. -/
  | badCode
  /-- The first half of a pair of codes without a second code. -/
  | halfPair
  /-- A half of a pair of codes beside a code that is not the other half. -/
  | loneHalf
  | controlCharacter
  /-- More containers are open than may be. -/
  | tooDeep
  deriving DecidableEq, Repr

namespace Flaw

/-- The message of a flaw. -/
def message : Flaw → String
  | endOfValue => "EOF while parsing a value"
  | endOfList => "EOF while parsing a list"
  | endOfObject => "EOF while parsing an object"
  | endOfString => "EOF while parsing a string"
  | valueExpected => "expected value"
  | wordExpected => "expected ident"
  | colonExpected => "expected `:`"
  | itemExpected => "expected `,` or `]`"
  | memberExpected => "expected `,` or `\x7d`"
  | keyExpected => "key must be a string"
  | trailingComma => "trailing comma"
  | trailingText => "trailing characters"
  | badNumber => "invalid number"
  | numberTooBig => "number out of range"
  | badEscape => "invalid escape"
  | badCode => "invalid escape"
  | halfPair => "unexpected end of hex escape"
  | loneHalf => "lone leading surrogate in hex escape"
  | controlCharacter => "control character (\\u0000-\\u001F) found while parsing a string"
  | tooDeep => "recursion limit exceeded"

end Flaw

/-- A place past which a text cannot be read: the flaw that is named when the text is
read for its value, and the flaw that is named when it is read over. -/
structure Break where
  read : Flaw
  skipped : Flaw
  deriving DecidableEq, Repr

/-- A break that is named alike both ways. -/
def Break.of (flaw : Flaw) : Break :=
  ⟨flaw, flaw⟩

end StructuredQuery
