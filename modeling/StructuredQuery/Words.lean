import StructuredQuery.Reading

/-!
# Words

A text that is given as one string or as a list of strings, and kept as it was given.
-/

namespace StructuredQuery

/-- One string or a list of strings. -/
inductive Words where
  | one (text : String)
  | many (texts : List String)
  deriving DecidableEq

namespace Words

/-- Words in JSON. -/
def encode : Words → Json
  | one text => .string text
  | many texts => .array (texts.map .string)

/-- The strings of a list of trees, if all of them are strings. -/
def strings? : List Json → Option (List String)
  | [] => some []
  | .string text :: items => (text :: ·) <$> strings? items
  | _ :: _ => none

/-- The words that a tree holds. -/
def ofTree? : Json → Option Words
  | .string text => some (.one text)
  | .array items => .many <$> strings? items
  | _ => none

/-- Reads words. -/
def read (room : Nat) (doc : Doc) : Read Words := do
  match ofTree? (← doc.readTree room) with
  | some words => .ok words
  | none => .error (.noForm "OneOrMany")

end Words

end StructuredQuery
