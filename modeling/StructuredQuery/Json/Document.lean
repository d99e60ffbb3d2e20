import StructuredQuery.Json.Token

/-!
# Documents

`Doc` is a JSON text as a tree in which every flaw of the text stands at its place, so
that a reader of the tree meets the flaws and the data in the order of the text.
`Document.ofText` builds it from the tokens: `State` says what may come next, `State.step`
takes the next token, and the containers that are still open wait on a stack of frames.
`Doc.skip` reads over a tree, which may be of any depth.
-/

namespace StructuredQuery

/-- A JSON text as a tree.  An array or object ends well, or in a break. -/
inductive Doc where
  | null
  | bool (value : Bool)
  | number (value : Except Flaw Number)
  | string (value : Except Flaw String)
  | array (items : List Doc) (ending : Option Break)
  | object (members : List (Except Flaw String × Doc)) (ending : Option Break)
  /-- A word or a numeral that cannot be read. -/
  | brokenAtom (cut : Break)
  /-- A place where a value should stand and nothing that can be read does. -/
  | broken (cut : Break)

/-- A key of an object, or the flaw of its text. -/
abbrev Key := Except Flaw String

/-- A member of an object of a document. -/
abbrev Member := Key × Doc

namespace Doc

instance : Inhabited Doc := ⟨.null⟩

mutual

/-- A tree as a document without flaws. -/
def ofJson : Json → Doc
  | .null => .null
  | .bool value => .bool value
  | .number value => .number (.ok value)
  | .string value => .string (.ok value)
  | .array items => .array (ofItems items) none
  | .object members => .object (ofMembers members) none
termination_by structural json => json

/-- Items as parts of a document. -/
def ofItems : List Json → List Doc
  | [] => []
  | item :: items => ofJson item :: ofItems items
termination_by structural items => items

/-- Members as parts of a document. -/
def ofMembers : List (String × Json) → List Member
  | [] => []
  | (key, value) :: members => (.ok key, ofJson value) :: ofMembers members
termination_by structural members => members

end

/-! ### Reading over -/

/-- The flaw with which a container ends, if it is read over. -/
def skipEnding : Option Break → Except Flaw Unit
  | none => .ok ()
  | some cut => .error cut.skipped

mutual

/-- Reads over a document.  Numbers may be too big, halves of pairs may stand alone, and
there is no limit on the depth. -/
def skip : Doc → Except Flaw Unit
  | .array items ending => do
    skipItems items
    skipEnding ending
  | .object members ending => do
    skipMembers members
    skipEnding ending
  | .brokenAtom cut | .broken cut => .error cut.skipped
  | _ => .ok ()
termination_by structural doc => doc

/-- Reads over items. -/
def skipItems : List Doc → Except Flaw Unit
  | [] => .ok ()
  | item :: items => do
    item.skip
    skipItems items
termination_by structural items => items

/-- Reads over members. -/
def skipMembers : List Member → Except Flaw Unit
  | [] => .ok ()
  | (_, value) :: members => do
    value.skip
    skipMembers members
termination_by structural members => members

end

end Doc

/-! ### Building the tree -/

/-- A text that should hold one document: the tree, and whether anything follows it. -/
structure Document where
  root : Doc
  followed : Bool

namespace Document

/-- A container that is still open, with its parts so far, the last one first. -/
inductive Frame where
  | array (items : List Doc)
  /-- An object that waits for the value of `key`. -/
  | object (members : List Member) (key : Key)

/-- What may come next.  The first frame of a stack is the innermost container. -/
inductive State where
  /-- A value. -/
  | value (stack : List Frame)
  /-- The first item of an array, or its end. -/
  | firstItem (stack : List Frame)
  /-- An item after a comma. -/
  | nextItem (items : List Doc) (stack : List Frame)
  /-- A comma or the end after an item. -/
  | afterItem (items : List Doc) (stack : List Frame)
  /-- The first key of an object, or its end. -/
  | firstKey (stack : List Frame)
  /-- A key after a comma. -/
  | nextKey (members : List Member) (stack : List Frame)
  /-- The colon after a key. -/
  | colon (members : List Member) (key : Key) (stack : List Frame)
  /-- A comma or the end after a member. -/
  | afterMember (members : List Member) (stack : List Frame)
  /-- Nothing: the document is complete. -/
  | done (root : Doc)

/-- The state after a value. -/
def State.complete (doc : Doc) : List Frame → State
  | [] => .done doc
  | .array items :: stack => .afterItem (doc :: items) stack
  | .object members key :: stack => .afterMember ((key, doc) :: members) stack

/-- The document whose innermost part cannot be read on, with all that is open around it. -/
def abandon (doc : Doc) : List Frame → Doc
  | [] => doc
  | .array items :: stack => abandon (.array (doc :: items).reverse none) stack
  | .object members key :: stack =>
    abandon (.object ((key, doc) :: members).reverse none) stack

/-- The outcome of a token: the next state, or the document if it cannot be read on. -/
abbrev Outcome := Except Doc State

/-- Gives up at a place where a value should stand. -/
def Outcome.broken (cut : Break) (stack : List Frame) : Outcome :=
  .error (abandon (.broken cut) stack)

/-- Gives up inside an array. -/
def Outcome.brokenArray (items : List Doc) (cut : Break) (stack : List Frame) : Outcome :=
  .error (abandon (.array items.reverse (some cut)) stack)

/-- Gives up inside an object. -/
def Outcome.brokenObject (members : List Member) (cut : Break) (stack : List Frame) : Outcome :=
  .error (abandon (.object members.reverse (some cut)) stack)

/-- A token where a value must stand. -/
def valueStep (stack : List Frame) : Token → Outcome
  | .openArray => .ok (.firstItem stack)
  | .openObject => .ok (.firstKey stack)
  | .null => .ok (.complete .null stack)
  | .bool value => .ok (.complete (.bool value) stack)
  | .number value => .ok (.complete (.number value) stack)
  | .string value => .ok (.complete (.string value) stack)
  | .brokenAtom cut => .error (abandon (.brokenAtom cut) stack)
  | .broken cut | .brokenString cut => .broken cut stack
  | .closeArray | .closeObject | .comma | .colon => .broken (.of .valueExpected) stack

/-- A token where a key must stand. -/
def keyStep (members : List Member) (stack : List Frame) : Token → Outcome
  | .string key => .ok (.colon members key stack)
  | .brokenString cut => .brokenObject members cut stack
  | _ => .brokenObject members (.of .keyExpected) stack

/-- What the next token does to a state. -/
def State.step (token : Token) : State → Outcome
  | .value stack => valueStep stack token
  | .firstItem stack =>
    match token with
    | .closeArray => .ok (.complete (.array [] none) stack)
    | token => valueStep (.array [] :: stack) token
  | .nextItem items stack =>
    match token with
    | .closeArray => .brokenArray items ⟨.trailingComma, .valueExpected⟩ stack
    | token => valueStep (.array items :: stack) token
  | .afterItem items stack =>
    match token with
    | .comma => .ok (.nextItem items stack)
    | .closeArray => .ok (.complete (.array items.reverse none) stack)
    | _ => .brokenArray items (.of .itemExpected) stack
  | .firstKey stack =>
    match token with
    | .closeObject => .ok (.complete (.object [] none) stack)
    | token => keyStep [] stack token
  | .nextKey members stack =>
    match token with
    | .closeObject => .brokenObject members ⟨.trailingComma, .keyExpected⟩ stack
    | token => keyStep members stack token
  | .colon members key stack =>
    match token with
    | .colon => .ok (.value (.object members key :: stack))
    | _ => .broken (.of .colonExpected) (.object members key :: stack)
  | .afterMember members stack =>
    match token with
    | .comma => .ok (.nextKey members stack)
    | .closeObject => .ok (.complete (.object members.reverse none) stack)
    | _ => .brokenObject members (.of .memberExpected) stack
  | .done root => .error root

/-- The document if the text ends in a state. -/
def State.finish : State → Doc
  | .value stack => abandon (.broken (.of .endOfValue)) stack
  | .firstItem stack => abandon (.array [] (some (.of .endOfList))) stack
  | .nextItem items stack => abandon (.broken (.of .endOfValue)) (.array items :: stack)
  | .afterItem items stack => abandon (.array items.reverse (some (.of .endOfList))) stack
  | .firstKey stack => abandon (.object [] (some (.of .endOfObject))) stack
  | .nextKey members stack =>
    abandon (.object members.reverse (some ⟨.endOfValue, .endOfObject⟩)) stack
  | .colon members key stack =>
    abandon (.broken (.of .endOfObject)) (.object members key :: stack)
  | .afterMember members stack =>
    abandon (.object members.reverse (some (.of .endOfObject))) stack
  | .done root => root

/-- The document that tokens make up when they are read on in some state. -/
def ofTokensFrom : State → List Token → Document
  | state, [] => ⟨state.finish, false⟩
  | state, token :: tokens =>
    match state.step token with
    | .ok next => ofTokensFrom next tokens
    | .error root => ⟨root, true⟩

/-- The document that tokens make up. -/
def ofTokens (tokens : List Token) : Document :=
  ofTokensFrom (.value []) tokens

/-- A text as a document. -/
def ofText (text : String) : Document :=
  ofTokens (Token.scan text)

end Document

end StructuredQuery
