import StructuredQuery.Json.Document
import StructuredQuery.Proofs.Json.Numeral
import StructuredQuery.Proofs.Json.Quoted

/-!
# Reading written trees

Both texts of a tree, compact and indented, are cut into the same tokens, and the tokens
make up the tree again, as a document without flaws.
-/

namespace StructuredQuery

open Token (scanFrom)

namespace Json

/-! ### The tokens of a tree -/

mutual

/-- The tokens of a tree, in front of `rest`. -/
def tokensOnto : Json → List Token → List Token
  | .null, rest => .null :: rest
  | .bool value, rest => .bool value :: rest
  | .number value, rest => .number (.ok value) :: rest
  | .string value, rest => .string (.ok value) :: rest
  | .array items, rest => .openArray :: itemTokensOnto items (.closeArray :: rest)
  | .object members, rest => .openObject :: memberTokensOnto members (.closeObject :: rest)
termination_by structural json => json

/-- The tokens of items with commas between them, in front of `rest`. -/
def itemTokensOnto : List Json → List Token → List Token
  | [], rest => rest
  | item :: items, rest => item.tokensOnto (moreItemTokensOnto items rest)
termination_by structural items => items

/-- The tokens of items with a comma before each, in front of `rest`. -/
def moreItemTokensOnto : List Json → List Token → List Token
  | [], rest => rest
  | item :: items, rest => .comma :: item.tokensOnto (moreItemTokensOnto items rest)
termination_by structural items => items

/-- The tokens of members with commas between them, in front of `rest`. -/
def memberTokensOnto : List (String × Json) → List Token → List Token
  | [], rest => rest
  | (key, value) :: members, rest =>
    .string (.ok key) :: .colon :: value.tokensOnto (moreMemberTokensOnto members rest)
termination_by structural members => members

/-- The tokens of members with a comma before each, in front of `rest`. -/
def moreMemberTokensOnto : List (String × Json) → List Token → List Token
  | [], rest => rest
  | (key, value) :: members, rest =>
    .comma :: .string (.ok key) :: .colon :: value.tokensOnto (moreMemberTokensOnto members rest)
termination_by structural members => members

end

/-! ### Scanning the compact text -/

theorem delimited_compactMoreItemsOnto (items : List Json) {rest : List Char}
    (hrest : Numeral.Delimited rest) :
  Numeral.Delimited (compactMoreItemsOnto items rest)
  := by
  cases items with
  | nil => apply hrest
  | cons item items => apply Numeral.delimited_cons (by decide)

theorem delimited_compactMoreMembersOnto (members : List (String × Json)) {rest : List Char}
    (hrest : Numeral.Delimited rest) :
  Numeral.Delimited (compactMoreMembersOnto members rest)
  := by
  cases members with
  | nil => apply hrest
  | cons member members => apply Numeral.delimited_cons (by decide)

theorem delimited_close (rest : List Char) :
  Numeral.Delimited (']' :: rest) ∧ Numeral.Delimited ('\x7d' :: rest)
  := ⟨Numeral.delimited_cons (by decide) rest, Numeral.delimited_cons (by decide) rest⟩

theorem scanFrom_bool (value : Bool) (rest : List Char) :
  scanFrom .between (boolChars value ++ rest) = .bool value :: scanFrom .between rest
  := by
  cases value <;> rfl

/-- A character that is a token of its own. -/
theorem scanFrom_mark {c : Char} {token : Token}
    (h : Token.Mode.start c = ([token], some .between)) (rest : List Char) :
  scanFrom .between (c :: rest) = token :: scanFrom .between rest
  := by
  rw [scanFrom, Token.Mode.step, h]
  rfl

theorem scanFrom_key (key : String) (rest : List Char) :
  scanFrom .between (quote key ++ ':' :: rest)
    = .string (.ok key) :: .colon :: scanFrom .between rest
  := by
  rw [scanFrom_quote, scanFrom_mark rfl]

mutual

/-- The compact text of a tree is cut into the tokens of the tree. -/
theorem scanFrom_compactOnto :
    (json : Json) → {rest : List Char} → Numeral.Delimited rest →
      scanFrom .between (json.compactOnto rest) = json.tokensOnto (scanFrom .between rest)
  | .null, _, _ => rfl
  | .bool value, rest, _ => scanFrom_bool value rest
  | .number value, _, hrest => Numeral.scanFrom_number value hrest
  | .string value, rest, _ => scanFrom_quote value rest
  | .array items, rest, _ => by
    have hitems := scanFrom_compactItemsOnto items (delimited_close rest).1
    rw [compactOnto, scanFrom_mark rfl, hitems, scanFrom_mark rfl, tokensOnto]
  | .object members, rest, _ => by
    have hmembers := scanFrom_compactMembersOnto members (delimited_close rest).2
    rw [compactOnto, scanFrom_mark rfl, hmembers, scanFrom_mark rfl, tokensOnto]

theorem scanFrom_compactItemsOnto :
    (items : List Json) → {rest : List Char} → Numeral.Delimited rest →
      scanFrom .between (compactItemsOnto items rest)
        = itemTokensOnto items (scanFrom .between rest)
  | [], _, _ => rfl
  | item :: items, _, hrest => by
    have hitem := scanFrom_compactOnto item (delimited_compactMoreItemsOnto items hrest)
    rw [compactItemsOnto, hitem, scanFrom_compactMoreItemsOnto items hrest, itemTokensOnto]

theorem scanFrom_compactMoreItemsOnto :
    (items : List Json) → {rest : List Char} → Numeral.Delimited rest →
      scanFrom .between (compactMoreItemsOnto items rest)
        = moreItemTokensOnto items (scanFrom .between rest)
  | [], _, _ => rfl
  | item :: items, _, hrest => by
    have hitem := scanFrom_compactOnto item (delimited_compactMoreItemsOnto items hrest)
    rw [compactMoreItemsOnto, scanFrom_mark rfl, hitem, scanFrom_compactMoreItemsOnto items hrest,
      moreItemTokensOnto]

theorem scanFrom_compactMembersOnto :
    (members : List (String × Json)) → {rest : List Char} → Numeral.Delimited rest →
      scanFrom .between (compactMembersOnto members rest)
        = memberTokensOnto members (scanFrom .between rest)
  | [], _, _ => rfl
  | (key, value) :: members, _, hrest => by
    have hvalue := scanFrom_compactOnto value (delimited_compactMoreMembersOnto members hrest)
    rw [compactMembersOnto, scanFrom_key, hvalue, scanFrom_compactMoreMembersOnto members hrest,
      memberTokensOnto]

theorem scanFrom_compactMoreMembersOnto :
    (members : List (String × Json)) → {rest : List Char} → Numeral.Delimited rest →
      scanFrom .between (compactMoreMembersOnto members rest)
        = moreMemberTokensOnto members (scanFrom .between rest)
  | [], _, _ => rfl
  | (key, value) :: members, _, hrest => by
    have hvalue := scanFrom_compactOnto value (delimited_compactMoreMembersOnto members hrest)
    rw [compactMoreMembersOnto, List.cons_append, scanFrom_mark rfl, scanFrom_key, hvalue,
      scanFrom_compactMoreMembersOnto members hrest, moreMemberTokensOnto]

end

/-! ### Scanning the indented text -/

theorem scanFrom_newLineOnto (level : ℕ) (rest : List Char) :
  scanFrom .between (newLineOnto level rest) = scanFrom .between rest
  := by
  have hblanks (count : ℕ) :
      scanFrom .between (List.replicate count ' ' ++ rest) = scanFrom .between rest := by
    induction count with
    | zero => rfl
    | succ count ih =>
      rw [List.replicate_succ, List.cons_append, scanFrom_step rfl, ih]
  rw [newLineOnto, List.cons_append, scanFrom_step rfl, hblanks]

theorem delimited_newLineOnto (level : ℕ) (rest : List Char) :
  Numeral.Delimited (newLineOnto level rest)
  := Numeral.delimited_cons (by decide) _

theorem delimited_prettyMoreItemsOnto (level : ℕ) (items : List Json) {rest : List Char}
    (hrest : Numeral.Delimited rest) :
  Numeral.Delimited (prettyMoreItemsOnto level items rest)
  := by
  cases items with
  | nil => apply hrest
  | cons item items => apply Numeral.delimited_cons (by decide)

theorem delimited_prettyMoreMembersOnto (level : ℕ) (members : List (String × Json))
    {rest : List Char} (hrest : Numeral.Delimited rest) :
  Numeral.Delimited (prettyMoreMembersOnto level members rest)
  := by
  cases members with
  | nil => apply hrest
  | cons member members => apply Numeral.delimited_cons (by decide)

mutual

/-- The indented text of a tree is cut into the tokens of the tree. -/
theorem scanFrom_prettyOnto (level : ℕ) :
    (json : Json) → {rest : List Char} → Numeral.Delimited rest →
      scanFrom .between (json.prettyOnto level rest) = json.tokensOnto (scanFrom .between rest)
  | .null, _, _ => rfl
  | .bool value, rest, _ => scanFrom_bool value rest
  | .number value, _, hrest => Numeral.scanFrom_number value hrest
  | .string value, rest, _ => scanFrom_quote value rest
  | .array [], _, _ => rfl
  | .array (item :: items), rest, _ => by
    have hmore := delimited_prettyMoreItemsOnto (level + 1) items
      (delimited_newLineOnto level (']' :: rest))
    have hitem := scanFrom_prettyOnto (level + 1) item hmore
    have hitems := scanFrom_prettyMoreItemsOnto (level + 1) items
      (delimited_newLineOnto level (']' :: rest))
    rw [prettyOnto, scanFrom_mark rfl, scanFrom_newLineOnto, hitem, hitems, scanFrom_newLineOnto,
      scanFrom_mark rfl, tokensOnto, itemTokensOnto]
  | .object [], _, _ => rfl
  | .object ((key, value) :: members), rest, _ => by
    have hmore := delimited_prettyMoreMembersOnto (level + 1) members
      (delimited_newLineOnto level ('\x7d' :: rest))
    have hvalue := scanFrom_prettyOnto (level + 1) value hmore
    have hmembers := scanFrom_prettyMoreMembersOnto (level + 1) members
      (delimited_newLineOnto level ('\x7d' :: rest))
    rw [prettyOnto, scanFrom_mark rfl, scanFrom_newLineOnto, scanFrom_key, scanFrom_step rfl,
      hvalue, hmembers, scanFrom_newLineOnto, scanFrom_mark rfl, tokensOnto, memberTokensOnto]

theorem scanFrom_prettyMoreItemsOnto (level : ℕ) :
    (items : List Json) → {rest : List Char} → Numeral.Delimited rest →
      scanFrom .between (prettyMoreItemsOnto level items rest)
        = moreItemTokensOnto items (scanFrom .between rest)
  | [], _, _ => rfl
  | item :: items, _, hrest => by
    have hitem := scanFrom_prettyOnto level item (delimited_prettyMoreItemsOnto level items hrest)
    rw [prettyMoreItemsOnto, scanFrom_mark rfl, scanFrom_newLineOnto, hitem,
      scanFrom_prettyMoreItemsOnto level items hrest, moreItemTokensOnto]

theorem scanFrom_prettyMoreMembersOnto (level : ℕ) :
    (members : List (String × Json)) → {rest : List Char} → Numeral.Delimited rest →
      scanFrom .between (prettyMoreMembersOnto level members rest)
        = moreMemberTokensOnto members (scanFrom .between rest)
  | [], _, _ => rfl
  | (key, value) :: members, _, hrest => by
    have hvalue := scanFrom_prettyOnto level value
      (delimited_prettyMoreMembersOnto level members hrest)
    rw [prettyMoreMembersOnto, scanFrom_mark rfl, scanFrom_newLineOnto, scanFrom_key,
      scanFrom_step rfl, hvalue, scanFrom_prettyMoreMembersOnto level members hrest,
      moreMemberTokensOnto]

end

end Json

/-! ### Building the tree again -/

namespace Document

/-- A step that goes on to another state. -/
theorem ofTokensFrom_step {state next : State} {token : Token}
    (h : state.step token = .ok next) (tokens : List Token) :
  ofTokensFrom state (token :: tokens) = ofTokensFrom next tokens
  := by
  rw [ofTokensFrom, h]

/-- The first item of an array is read like any value. -/
theorem ofTokensFrom_firstItem (json : Json) (stack : List Frame) (rest : List Token) :
  ofTokensFrom (.firstItem stack) (json.tokensOnto rest)
    = ofTokensFrom (.value (.array [] :: stack)) (json.tokensOnto rest)
  := by
  cases json <;> rfl

/-- An item after a comma is read like any value. -/
theorem ofTokensFrom_nextItem (json : Json) (items : List Doc) (stack : List Frame)
    (rest : List Token) :
  ofTokensFrom (.nextItem items stack) (json.tokensOnto rest)
    = ofTokensFrom (.value (.array items :: stack)) (json.tokensOnto rest)
  := by
  cases json <;> rfl

mutual

/-- The tokens of a tree are taken for a value, which is the tree. -/
theorem ofTokensFrom_tokensOnto :
    (json : Json) → (stack : List Frame) → (rest : List Token) →
      ofTokensFrom (.value stack) (json.tokensOnto rest)
        = ofTokensFrom (.complete (Doc.ofJson json) stack) rest
  | .null, _, _ | .bool _, _, _ | .number _, _, _ | .string _, _, _ => rfl
  | .array [], _, _ => rfl
  | .array (item :: items), stack, rest => by
    rw [Json.tokensOnto, ofTokensFrom_step rfl, Json.itemTokensOnto, ofTokensFrom_firstItem,
      ofTokensFrom_tokensOnto, State.complete, ofTokensFrom_moreItemTokensOnto]
    rfl
  | .object [], _, _ => rfl
  | .object ((key, value) :: members), stack, rest => by
    rw [Json.tokensOnto, ofTokensFrom_step rfl, Json.memberTokensOnto, ofTokensFrom_step rfl,
      ofTokensFrom_step rfl, ofTokensFrom_tokensOnto, State.complete,
      ofTokensFrom_moreMemberTokensOnto]
    rfl

theorem ofTokensFrom_moreItemTokensOnto :
    (items : List Json) → (before : List Doc) → (stack : List Frame) → (rest : List Token) →
      ofTokensFrom (.afterItem before stack) (Json.moreItemTokensOnto items (.closeArray :: rest))
        = ofTokensFrom
            (.complete (.array (before.reverse ++ Doc.ofItems items) none) stack) rest
  | [], before, stack, rest => by
    rw [Doc.ofItems, List.append_nil]
    rfl
  | item :: items, before, stack, rest => by
    rw [Json.moreItemTokensOnto, ofTokensFrom_step rfl, ofTokensFrom_nextItem,
      ofTokensFrom_tokensOnto, State.complete, ofTokensFrom_moreItemTokensOnto, List.reverse_cons,
      List.append_assoc]
    rfl

theorem ofTokensFrom_moreMemberTokensOnto :
    (members : List (String × Json)) → (before : List Member) → (stack : List Frame) →
      (rest : List Token) →
        ofTokensFrom (.afterMember before stack)
            (Json.moreMemberTokensOnto members (.closeObject :: rest))
          = ofTokensFrom
              (.complete (.object (before.reverse ++ Doc.ofMembers members) none) stack) rest
  | [], before, stack, rest => by
    rw [Doc.ofMembers, List.append_nil]
    rfl
  | (key, value) :: members, before, stack, rest => by
    rw [Json.moreMemberTokensOnto, ofTokensFrom_step rfl, ofTokensFrom_step rfl,
      ofTokensFrom_step rfl, ofTokensFrom_tokensOnto, State.complete,
      ofTokensFrom_moreMemberTokensOnto, List.reverse_cons, List.append_assoc]
    rfl

end

/-- The compact text of a tree is read as the tree. -/
theorem ofText_compact (json : Json) :
  ofText json.compact = ⟨Doc.ofJson json, false⟩
  := by
  rw [ofText, Token.scan, Json.compact, String.toList_ofList,
    Json.scanFrom_compactOnto json Numeral.delimited_nil, ofTokens, ofTokensFrom_tokensOnto]
  rfl

/-- The indented text of a tree is read as the tree. -/
theorem ofText_pretty (json : Json) :
  ofText json.pretty = ⟨Doc.ofJson json, false⟩
  := by
  rw [ofText, Token.scan, Json.pretty, String.toList_ofList,
    Json.scanFrom_prettyOnto 0 json Numeral.delimited_nil, ofTokens, ofTokensFrom_tokensOnto]
  rfl

end Document

end StructuredQuery
