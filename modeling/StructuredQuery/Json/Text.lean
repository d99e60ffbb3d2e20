import StructuredQuery.Double.Shortest
import StructuredQuery.Json

/-!
# Written JSON

The two written forms of a JSON tree: `compact`, without white space, and `pretty`,
with one member or item a line, indented by two blanks a level.  Strings escape the
quotation mark, the backslash and the characters below `U+0020`; all else stands as
it is.  Members are written in the order in which they stand.
-/

namespace StructuredQuery

namespace Json

/-! ### Scalars -/

/-- The digit of a number below sixteen, in lower case. -/
def hexDigit (n : Nat) : Char :=
  Nat.digitChar n

/-- A character as it stands in a quoted string. -/
def escapeChar (c : Char) : List Char :=
  if c = '"' then ['\\', '"']
  else if c = '\\' then ['\\', '\\']
  else if c = '\x08' then ['\\', 'b']
  else if c = '\x0c' then ['\\', 'f']
  else if c = '\n' then ['\\', 'n']
  else if c = '\r' then ['\\', 'r']
  else if c = '\t' then ['\\', 't']
  else if c.toNat < 32 then
    ['\\', 'u', '0', '0', hexDigit (c.toNat / 16), hexDigit (c.toNat % 16)]
  else [c]

/-- A string between quotation marks. -/
def quote (s : String) : List Char :=
  '"' :: s.toList.flatMap escapeChar ++ ['"']

/-- The text of a whole number. -/
def integerChars (value : Int) : List Char :=
  Double.signChars (value < 0) ++ Double.digitChars value.natAbs

end Json

/-- The text of a number. -/
def Number.chars : Number → List Char
  | .integer value _ => Json.integerChars value
  | .float value _ => value.chars

namespace Json

/-- The text of a truth value. -/
def boolChars (value : Bool) : List Char :=
  if value then ['t', 'r', 'u', 'e'] else ['f', 'a', 'l', 's', 'e']

/-! ### Compact form -/

mutual

/-- The text of a tree without white space, in front of `rest`. -/
def compactOnto : Json → List Char → List Char
  | .null, rest => 'n' :: 'u' :: 'l' :: 'l' :: rest
  | .bool value, rest => boolChars value ++ rest
  | .number value, rest => value.chars ++ rest
  | .string value, rest => quote value ++ rest
  | .array items, rest => '[' :: compactItemsOnto items (']' :: rest)
  | .object members, rest => '\x7b' :: compactMembersOnto members ('\x7d' :: rest)
termination_by structural json => json

/-- The items with commas between them, in front of `rest`. -/
def compactItemsOnto : List Json → List Char → List Char
  | [], rest => rest
  | item :: items, rest => item.compactOnto (compactMoreItemsOnto items rest)
termination_by structural items => items

/-- The items with a comma before each, in front of `rest`. -/
def compactMoreItemsOnto : List Json → List Char → List Char
  | [], rest => rest
  | item :: items, rest => ',' :: item.compactOnto (compactMoreItemsOnto items rest)
termination_by structural items => items

/-- The members with commas between them, in front of `rest`. -/
def compactMembersOnto : List (String × Json) → List Char → List Char
  | [], rest => rest
  | (key, value) :: members, rest =>
    quote key ++ ':' :: value.compactOnto (compactMoreMembersOnto members rest)
termination_by structural members => members

/-- The members with a comma before each, in front of `rest`. -/
def compactMoreMembersOnto : List (String × Json) → List Char → List Char
  | [], rest => rest
  | (key, value) :: members, rest =>
    ',' :: quote key ++ ':' :: value.compactOnto (compactMoreMembersOnto members rest)
termination_by structural members => members

end

/-- The compact form of a tree. -/
def compact (json : Json) : String :=
  String.ofList (json.compactOnto [])

/-! ### Indented form -/

/-- A new line, indented to a level, in front of `rest`. -/
def newLineOnto (level : Nat) (rest : List Char) : List Char :=
  '\n' :: List.replicate (2 * level) ' ' ++ rest

mutual

/-- The text of a tree whose own line is indented to `level`, in front of `rest`. -/
def prettyOnto (level : Nat) : Json → List Char → List Char
  | .array [], rest => '[' :: ']' :: rest
  | .array (item :: items), rest =>
    '[' :: newLineOnto (level + 1) (item.prettyOnto (level + 1)
      (prettyMoreItemsOnto (level + 1) items (newLineOnto level (']' :: rest))))
  | .object [], rest => '\x7b' :: '\x7d' :: rest
  | .object ((key, value) :: members), rest =>
    '\x7b' :: newLineOnto (level + 1) (quote key ++ ':' :: ' ' :: value.prettyOnto (level + 1)
      (prettyMoreMembersOnto (level + 1) members (newLineOnto level ('\x7d' :: rest))))
  | json, rest => json.compactOnto rest
termination_by structural json => json

/-- The items, each on a line of its own after a comma, in front of `rest`. -/
def prettyMoreItemsOnto (level : Nat) : List Json → List Char → List Char
  | [], rest => rest
  | item :: items, rest =>
    ',' :: newLineOnto level (item.prettyOnto level (prettyMoreItemsOnto level items rest))
termination_by structural items => items

/-- The members, each on a line of its own after a comma, in front of `rest`. -/
def prettyMoreMembersOnto (level : Nat) : List (String × Json) → List Char → List Char
  | [], rest => rest
  | (key, value) :: members, rest =>
    ',' :: newLineOnto level (quote key ++ ':' :: ' ' :: value.prettyOnto level
      (prettyMoreMembersOnto level members rest))
termination_by structural members => members

end

/-- The indented form of a tree. -/
def pretty (json : Json) : String :=
  String.ofList (json.prettyOnto 0 [])

end Json

end StructuredQuery
