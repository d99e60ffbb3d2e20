import StructuredQuery.Json.Numeral

/-!
# Tokens of a JSON text

`Token.scan` cuts a text into its tokens, one character at a time: `Mode` says what is
being read, and `Mode.step` takes the next character, gives the tokens that it ends and
the mode that follows, or none if the text cannot be read on.  A string or number that
can be read over but has no value is a token that carries its flaw.
-/

namespace StructuredQuery

/-- A token of a JSON text. -/
inductive Token where
  | openArray
  | closeArray
  | openObject
  | closeObject
  | comma
  | colon
  | null
  | bool (value : Bool)
  | number (value : Except Flaw Number)
  | string (value : Except Flaw String)
  /-- A string past which the text cannot be read. -/
  | brokenString (cut : Break)
  /-- A word or a numeral past which the text cannot be read. -/
  | brokenAtom (cut : Break)
  /-- Text that no token starts with. -/
  | broken (cut : Break)

namespace Token

/-! ### Strings -/

/-- A part of a string: a character, or a code of sixteen bits that was written in
hexadecimal digits. -/
inductive Piece where
  | char (c : Char)
  | code (unit : Nat)
  deriving DecidableEq

/-- A code that is the first half of a pair. -/
def isHigh (unit : Nat) : Bool :=
  0xd800 ≤ unit && unit < 0xdc00

/-- A code that is the second half of a pair. -/
def isLow (unit : Nat) : Bool :=
  0xdc00 ≤ unit && unit < 0xe000

/-- The character that a pair of codes stands for. -/
def pairChar (high low : Nat) : Char :=
  Char.ofNat (0x10000 + (high - 0xd800) * 0x400 + (low - 0xdc00))

/-- The flaw of a first half of a pair that ends the pieces.  The text may end before a
second code, or the digits of that code may be bad; all else is no second code. -/
def halfPairFlaw : Option Flaw → Flaw
  | some .endOfString => .endOfString
  | some .badCode => .badCode
  | _ => .halfPair

/-- The characters that pieces stand for, codes put together in pairs; `ending` is the
flaw after the last piece, if the string is not closed there. -/
def joinPieces (ending : Option Flaw) : List Piece → Except Flaw (List Char)
  | [] => match ending with
    | none => .ok []
    | some flaw => .error flaw
  | .char c :: pieces => (c :: ·) <$> joinPieces ending pieces
  | [.code unit] =>
    if isHigh unit then .error (halfPairFlaw ending)
    else if isLow unit then .error .loneHalf
    else (Char.ofNat unit :: ·) <$> joinPieces ending []
  | .code unit :: .char c :: pieces =>
    if isHigh unit then .error .halfPair
    else if isLow unit then .error .loneHalf
    else (Char.ofNat unit :: ·) <$> joinPieces ending (.char c :: pieces)
  | .code unit :: .code next :: pieces =>
    if isHigh unit then
      if isLow next then (pairChar unit next :: ·) <$> joinPieces ending pieces
      else .error .loneHalf
    else if isLow unit then .error .loneHalf
    else (Char.ofNat unit :: ·) <$> joinPieces ending (.code next :: pieces)

/-- The token of a string that has been closed. -/
def ofPieces (pieces : List Piece) : Token :=
  .string (String.ofList <$> joinPieces none pieces)

/-- The token of a string that cannot be read on because of `flaw`. -/
def ofBrokenPieces (pieces : List Piece) (flaw : Flaw) : Token :=
  match joinPieces (some flaw) pieces with
  | .ok _ => .brokenString (.of flaw)
  | .error first => .brokenString ⟨first, flaw⟩

/-- The character that a letter after a backslash stands for. -/
def escaped? (c : Char) : Option Char :=
  if c = '"' ∨ c = '\\' ∨ c = '/' then some c
  else if c = 'b' then some '\x08'
  else if c = 'f' then some '\x0c'
  else if c = 'n' then some '\n'
  else if c = 'r' then some '\r'
  else if c = 't' then some '\t'
  else none

/-- The value of a hexadecimal digit in either case. -/
def hexValue? (c : Char) : Option Nat :=
  if '0' ≤ c ∧ c ≤ '9' then some (c.toNat - '0'.toNat)
  else if 'a' ≤ c ∧ c ≤ 'f' then some (c.toNat - 'a'.toNat + 10)
  else if 'A' ≤ c ∧ c ≤ 'F' then some (c.toNat - 'A'.toNat + 10)
  else none

/-! ### Scanning -/

/-- What is being read. -/
inductive Mode where
  | between
  /-- A word of which the characters `left` are still to come. -/
  | word (token : Token) (left : List Char)
  | number (numeral : Numeral) (phase : Numeral.Phase)
  /-- A string; its pieces so far, the last one first. -/
  | string (pieces : List Piece)
  /-- The character after a backslash. -/
  | escape (pieces : List Piece)
  /-- The digits of a code, which take up four bytes: how many bytes have been read, and
  the code so far unless one of its digits was none. -/
  | code (pieces : List Piece) (bytes : Nat) (value : Option Nat)

/-- White space between tokens. -/
def isBlank (c : Char) : Bool :=
  c = ' ' || c = '\t' || c = '\n' || c = '\r'

namespace Mode

/-- The first character of a token, or white space. -/
def start (c : Char) : List Token × Option Mode :=
  if isBlank c then ([], some between)
  else if c = '[' then ([.openArray], some between)
  else if c = ']' then ([.closeArray], some between)
  else if c = '\x7b' then ([.openObject], some between)
  else if c = '\x7d' then ([.closeObject], some between)
  else if c = ',' then ([.comma], some between)
  else if c = ':' then ([.colon], some between)
  else if c = '"' then ([], some (string []))
  else if c = 'n' then ([], some (word .null ['u', 'l', 'l']))
  else if c = 't' then ([], some (word (.bool true) ['r', 'u', 'e']))
  else if c = 'f' then ([], some (word (.bool false) ['a', 'l', 's', 'e']))
  else if c = '-' then ([], some (number (.empty true) .sign))
  else match Numeral.digit? c with
    | some d =>
      ([], some (number ((Numeral.empty false).push d 0) (if d = 0 then .zero else .integer)))
    | none => ([.broken (.of .valueExpected)], none)

/-- The next character of a string. -/
def stringStep (pieces : List Piece) (c : Char) : List Token × Option Mode :=
  if c = '"' then ([ofPieces pieces.reverse], some between)
  else if c = '\\' then ([], some (escape pieces))
  else if c.toNat < 32 then ([ofBrokenPieces pieces.reverse .controlCharacter], none)
  else ([], some (string (.char c :: pieces)))

/-- The character after a backslash. -/
def escapeStep (pieces : List Piece) (c : Char) : List Token × Option Mode :=
  if c = 'u' then ([], some (code pieces 0 (some 0)))
  else match escaped? c with
    | some e => ([], some (string (.char e :: pieces)))
    | none => ([ofBrokenPieces pieces.reverse .badEscape], none)

/-- The next digit of a code. -/
def codeStep (pieces : List Piece) (bytes : Nat) (value : Option Nat) (c : Char) :
    List Token × Option Mode :=
  let bytes := bytes + c.utf8Size
  let value := value.bind fun v => (hexValue? c).map (v * 16 + ·)
  if bytes < 4 then ([], some (code pieces bytes value))
  else match value with
    | some unit => ([], some (string (.code unit :: pieces)))
    | none => ([ofBrokenPieces pieces.reverse .badCode], none)

/-- The tokens that a character ends, and what is read after it. -/
def step (mode : Mode) (c : Char) : List Token × Option Mode :=
  match mode with
  | between => start c
  | word token left =>
    match left with
    | [] => let (tokens, next) := start c; (token :: tokens, next)
    | expected :: left =>
      if c ≠ expected then ([.brokenAtom (.of .wordExpected)], none)
      else if left.isEmpty then ([token], some between)
      else ([], some (word token left))
  | number numeral phase =>
    match numeral.step phase c with
    | .more phase numeral => ([], some (number numeral phase))
    | .ends =>
      let (tokens, next) := start c
      (.number (numeral.value phase) :: tokens, next)
    | .bad => ([.brokenAtom (.of .badNumber)], none)
  | string pieces => stringStep pieces c
  | escape pieces => escapeStep pieces c
  | code pieces bytes value => codeStep pieces bytes value c

/-- The tokens that the end of the text ends. -/
def finish : Mode → List Token
  | between => []
  | word .. => [.brokenAtom (.of .endOfValue)]
  | number numeral phase =>
    if phase.isEnd then [.number (numeral.value phase)]
    else [.brokenAtom ⟨.endOfValue, .badNumber⟩]
  | string pieces | escape pieces | code pieces .. =>
    [ofBrokenPieces pieces.reverse .endOfString]

end Mode

/-- The tokens of a text that is read on in some mode. -/
def scanFrom : Mode → List Char → List Token
  | mode, [] => mode.finish
  | mode, c :: cs =>
    match mode.step c with
    | (tokens, some next) => tokens ++ scanFrom next cs
    | (tokens, none) => tokens

/-- The tokens of a text, up to the first place past which it cannot be read. -/
def scan (text : String) : List Token :=
  scanFrom .between text.toList

end Token

end StructuredQuery
