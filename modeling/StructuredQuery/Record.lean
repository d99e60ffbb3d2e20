import StructuredQuery.Reading

/-!
# Records

A record is an object with known keys.  `Fields` lists them in order: the key, the
reader of its value, and what an absent value stands for.  The members of the object
are read in document order into a row of slots, one for each field; a key that comes
twice is refused at its second place, and members of other keys are read over.  After
the object the slots are completed in the order of the fields.  A record may also be
given as the array of its values in the order of the fields.
-/

namespace StructuredQuery

/-- What stands for a field that is not there. -/
inductive Absent (α : Type) where
  /-- Nothing: the field must be there. -/
  | missing
  /-- A value, if the record is an object. -/
  | optional (value : α)
  /-- A value. -/
  | default (value : α)

/-- The fields of a record whose values have the given types. -/
inductive Fields : List Type → Type 1 where
  | done : Fields []
  | field {α : Type} {types : List Type} (key : String) (read : Doc → Read α)
      (absent : Absent α) (rest : Fields types) : Fields (α :: types)

/-- A slot for each field, filled or not. -/
def Row : List Type → Type
  | [] => Unit
  | α :: types => Option α × Row types

/-- A value for each field. -/
def Tuple : List Type → Type
  | [] => Unit
  | α :: types => α × Tuple types

/-- Where the members of a record come from. -/
inductive Source where
  /-- The text itself. -/
  | text
  /-- A tree that has been read before. -/
  | tree
  deriving DecidableEq, Repr

/-- The row in which no slot is filled. -/
def Row.empty : (types : List Type) → Row types
  | [] => ()
  | _ :: types => (none, Row.empty types)

/-- A number of elements in words. -/
def elementCount (count : Nat) : String :=
  if count = 1 then "1 element" else s!"{numeral count} elements"

namespace Fields

variable {types : List Type}

/-- A field that must be there. -/
def required {α : Type} (key : String) (read : Doc → Read α) (rest : Fields types) :
    Fields (α :: types) :=
  .field key read .missing rest

/-- A field that is nothing if it is null or not there. -/
def optional {α : Type} (key : String) (read : Doc → Read α) (rest : Fields types) :
    Fields (Option α :: types) :=
  .field key (Doc.readOption read) (.optional none) rest

/-- A field with a value for the case that it is not there. -/
def orElse {α : Type} (key : String) (read : Doc → Read α) (value : α) (rest : Fields types) :
    Fields (α :: types) :=
  .field key read (.default value) rest

/-- The keys of the fields. -/
def keys {types : List Type} : Fields types → List String
  | .done => []
  | .field key _ _ rest => key :: rest.keys

/-- Reads a member into the slot of its key; `none` if no field has the key. -/
def put? {types : List Type} (fields : Fields types) (key : String) (doc : Doc)
    (row : Row types) : Option (Read (Row types)) :=
  match fields, row with
  | .done, _ => none
  | .field own read _ rest, (slot, slots) =>
    if own = key then
      some <| match slot with
        | some _ => .error (.duplicateField key)
        | none => (fun value => (some value, slots)) <$> read doc
    else (rest.put? key doc slots).map fun filled => (slot, ·) <$> filled

/-- Reads members in document order. -/
def readMembers (fields : Fields types) : List Member → Row types → Read (Row types)
  | [], row => .ok row
  | (key, doc) :: members, row => do
    match fields.put? (← Read.ofFlaw key) doc row with
    | some filled => fields.readMembers members (← filled)
    | none =>
      Read.ofFlaw doc.skip
      fields.readMembers members row

/-- The values of a row, with what stands for the fields that are not there. -/
def complete {types : List Type} (fields : Fields types) (row : Row types) :
    Read (Tuple types) :=
  match fields, row with
  | .done, _ => .ok ()
  | .field key _ absent rest, (slot, slots) => do
    let value ← match slot, absent with
      | some value, _ | none, .optional value | none, .default value => .ok value
      | none, .missing => .error (.missingField key)
    return (value, ← rest.complete slots)

/-- Reads the values of an array in the order of the fields, `index` of which have been
read, and gives the items that are left. -/
def readItems {types : List Type} (fields : Fields types) (expected : String)
    (ending : Option Break) (index : Nat) (items : List Doc) :
    Read (Tuple types × List Doc) :=
  match fields with
  | .done => .ok ((), items)
  | .field _ read absent rest => do
    let (value, items) ← match items with
      | item :: items => (·, items) <$> read item
      | [] => do
        Doc.readEnding ending
        match absent with
        | .default value => .ok (value, [])
        | .missing | .optional _ => .error (.wrongLength index expected)
    let (values, items) ← rest.readItems expected ending (index + 1) items
    return ((value, values), items)

/-- Reads the end of an array after all fields of a record. -/
def readItemsEnding (source : Source) (count : Nat) (items : List Doc)
    (ending : Option Break) : Read Unit :=
  match items, ending with
  | [], none => .ok ()
  | [], some cut =>
    .fail (if cut.read = .trailingComma ∨ cut.read = .endOfList then cut.read
      else .trailingText)
  | items, _ =>
    match source with
    | .text => .fail .trailingText
    | .tree => .error (.wrongLength (count + items.length) (elementCount count ++ " in sequence"))

/-- Reads the members of an object. -/
def ofMembers (fields : Fields types) (members : List Member) (ending : Option Break) :
    Read (Tuple types) := do
  let row ← fields.readMembers members (Row.empty types)
  Doc.readEnding ending
  fields.complete row

/-- Reads the items of an array. -/
def ofItems (fields : Fields types) (source : Source) (name : String) (items : List Doc)
    (ending : Option Break) : Read (Tuple types) := do
  let count := fields.keys.length
  let expected := name ++ " with " ++ elementCount count
  let (values, rest) ← fields.readItems expected ending 0 items
  readItemsEnding source count rest ending
  return values

/-- Reads a record, an object or an array; `name` says what is expected. -/
def read (fields : Fields types) (source : Source) (name : String) (room : Nat) :
    Doc → Read (Tuple types)
  | .object members ending =>
    if room = 0 then .fail .tooDeep else fields.ofMembers members ending
  | .array items ending =>
    if room = 0 then .fail .tooDeep else fields.ofItems source name items ending
  | doc => doc.refuse name

/-! ### Records with further members -/

/-- Reads members in document order and keeps those of other keys as trees. -/
def readAllMembers (fields : Fields types) (room : Nat) :
    List Member → Row types → Read (Row types × List (String × Json))
  | [], row => .ok (row, [])
  | (key, doc) :: members, row => do
    let key ← Read.ofFlaw key
    match fields.put? key doc row with
    | some filled => fields.readAllMembers room members (← filled)
    | none =>
      let json ← doc.readTree room
      let (row, others) ← fields.readAllMembers room members row
      return (row, (key, json) :: others)

/-- Reads an object with known keys and others, and gives the others in document order. -/
def readOpen (fields : Fields types) (name : String) (room : Nat) :
    Doc → Read (Tuple types × List (String × Json))
  | .object members ending =>
    if room = 0 then .fail .tooDeep
    else do
      let (row, others) ← fields.readAllMembers (room - 1) members (Row.empty types)
      Doc.readEnding ending
      return (← fields.complete row, others)
  | doc => doc.refuse name

end Fields

end StructuredQuery
