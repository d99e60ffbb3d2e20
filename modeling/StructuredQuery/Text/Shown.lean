import StructuredQuery.Text.Hidden

/-!
# Shown strings

`shown` quotes a string for a message: what cannot be seen in it is written as an
escape, by a letter where there is one and else by its code point.
-/

namespace StructuredQuery

namespace Text

/-- A character as it stands in a shown string. -/
def showChar (c : Char) : List Char :=
  if c = '"' then ['\\', '"']
  else if c = '\\' then ['\\', '\\']
  else if c = '\x00' then ['\\', '0']
  else if c = '\t' then ['\\', 't']
  else if c = '\n' then ['\\', 'n']
  else if c = '\r' then ['\\', 'r']
  else if isHidden c then '\\' :: 'u' :: '\x7b' :: Nat.toDigits 16 c.toNat ++ ['\x7d']
  else [c]

/-- A string quoted for a message. -/
def shown (text : String) : String :=
  String.ofList ('"' :: text.toList.flatMap showChar ++ ['"'])

end Text

end StructuredQuery
