import StructuredQuery.Json.Document
import StructuredQuery.ReadError
import StructuredQuery.Value

/-!
# Reading documents

The readers of single values.  A reader meets the flaws of the text and the faults of
the data in document order and stops at the first.  `room` is the number of containers
that may still be opened: every array or object that is read takes one, and `fullRoom`
is what a text starts with.
-/

namespace StructuredQuery

/-- The number of containers that may stand inside each other. -/
def fullRoom : Nat :=
  127

namespace Doc

/-- Reads the end of a container. -/
def readEnding : Option Break → Read Unit
  | none => .ok ()
  | some cut => .fail cut.read

/-- What a document is, as far as its first token says. -/
def found : Doc → Read Found
  | .null => .ok .null
  | .bool value => .ok (.bool value)
  | .number value => .number <$> Read.ofFlaw value
  | .string value => .string <$> Read.ofFlaw value
  | .array .. => .ok .array
  | .object .. => .ok .object
  | .brokenAtom cut | .broken cut => .fail cut.read

/-- Refuses a document where something else is expected. -/
def refuse {α : Type} (expected : String) (doc : Doc) : Read α := do
  .error (.wrongType (← doc.found) expected)

/-! ### Scalars -/

/-- Reads a string. -/
def readString : Doc → Read String
  | .string value => Read.ofFlaw value
  | doc => doc.refuse "a string"

/-- Reads a number as a double. -/
def readDouble : Doc → Read Double
  | .number value => Number.toDouble <$> Read.ofFlaw value
  | doc => doc.refuse "f64"

/-- Reads a truth value. -/
def readBool : Doc → Read Bool
  | .bool value => .ok value
  | doc => doc.refuse "a boolean"

/-- Reads null. -/
def readNull : Doc → Read Unit
  | .null => .ok ()
  | doc => doc.refuse "unit"

/-- Reads null as nothing, and else what `read` reads. -/
def readOption {α : Type} (read : Doc → Read α) : Doc → Read (Option α)
  | .null => .ok none
  | doc => some <$> read doc

/-! ### Containers -/

/-- Reads an array whose items `item` reads. -/
def readList {α : Type} (room : Nat) (item : Doc → Read α) : Doc → Read (List α)
  | .array items ending =>
    if room = 0 then .fail .tooDeep
    else do
      let values ← items.mapM item
      readEnding ending
      return values
  | doc => doc.refuse "a sequence"

/-- Reads a whole document as a tree. -/
def readTree : Nat → Doc → Read Json
  | 0, .array .. | 0, .object .. => .fail .tooDeep
  | room + 1, .array items ending => do
    let items ← items.mapM (readTree room)
    readEnding ending
    return .array items
  | room + 1, .object members ending => do
    let members ← members.mapM fun member => do
      let key ← Read.ofFlaw member.1
      return (key, ← readTree room member.2)
    readEnding ending
    return .object members
  | _, .null => .ok .null
  | _, .bool value => .ok (.bool value)
  | _, .number value => .number <$> Read.ofFlaw value
  | _, .string value => .string <$> Read.ofFlaw value
  | _, .brokenAtom cut | _, .broken cut => .fail cut.read

/-- Reads any value. -/
def readValue (room : Nat) (doc : Doc) : Read Value :=
  Value.ofJson <$> doc.readTree room

/-! ### Labelled contents -/

/-- The flaw of an object that should start with a label. -/
def noLabelFlaw : Option Break → Flaw
  | none => .valueExpected
  | some cut => cut.read

/-- Reads the end of an object that must have a single member. -/
def readSingleEnding (rest : List Member) : Option Break → Read Unit
  | none => if rest.isEmpty then .ok () else .fail .valueExpected
  | some cut =>
    .fail (if rest.isEmpty ∧ cut.read = .endOfObject then .endOfObject else .valueExpected)

/-- The case that a label names, or the labels that there are. -/
def readLabel {α : Type} (known : List String) (case? : String → Option α) (label : String) :
    Read α :=
  match case? label with
  | some value => .ok value
  | none => .error (.unknownLabel label known)

/-- Reads a label with its content, an object of the label as the only key, or a label
alone, a string.  `content` reads with the room that is left inside the object. -/
def readLabelled {α β : Type} (room : Nat) (known : List String) (case? : String → Option α)
    (content : α → Doc → Read β) (alone : α → Read β) : Doc → Read β
  | .object members ending =>
    if room = 0 then .fail .tooDeep
    else match members with
      | [] => .fail (noLabelFlaw ending)
      | (key, doc) :: rest => do
        let label ← Read.ofFlaw key
        let value ← content (← readLabel known case? label) doc
        readSingleEnding rest ending
        return value
  | .string label => do
    alone (← readLabel known case? (← Read.ofFlaw label))
  | .broken cut => .fail cut.read
  | _ => .fail .valueExpected

end Doc

namespace Document

/-- Reads the document of a text, after which nothing may follow. -/
def read {α : Type} (reader : Doc → Read α) (document : Document) : Read α := do
  let value ← reader document.root
  if document.followed then .fail .trailingText
  return value

end Document

/-- Reads a text as JSON. -/
def Json.ofText (text : String) : Read Json :=
  (Document.ofText text).read (Doc.readTree fullRoom)

/-- Reads a text as a value. -/
def Value.ofText (text : String) : Read Value :=
  (Document.ofText text).read (Doc.readValue fullRoom)

end StructuredQuery
