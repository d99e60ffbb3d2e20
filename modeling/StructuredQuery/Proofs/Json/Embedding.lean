import StructuredQuery.Proofs.Json.Document
import StructuredQuery.Proofs.Reading.Success

/-!
# Trees inside longer texts

What is read from the text of a tree does not depend on where the text stands: whatever
containers are open around it, its tokens are read as the tree, in its place.
-/

namespace StructuredQuery

namespace Token

/-- The text cannot be read past the token. -/
def IsBroken : Token → Prop
  | brokenString _ | brokenAtom _ | broken _ => True
  | _ => False

theorem isBroken_ofBrokenPieces (pieces : List Piece) (flaw : Flaw) :
  (ofBrokenPieces pieces flaw).IsBroken
  := by
  rw [ofBrokenPieces]
  split <;> trivial

namespace Mode

/-- Where no token starts, the only token says so. -/
theorem eq_broken_of_start {c : Char} {tokens : List Token} (h : start c = (tokens, none)) :
  tokens = [.broken (.of .valueExpected)]
  := by
  simp only [start, ite_eq_iff, Prod.mk.injEq, reduceCtorEq, and_false, false_or] at h
  grind

theorem exists_isBroken_of_start {c : Char} {tokens : List Token} (h : start c = (tokens, none)) :
  ∃ token ∈ tokens, token.IsBroken
  := by
  rw [eq_broken_of_start h]
  exact ⟨_, List.mem_singleton.mpr rfl, trivial⟩

/-- A token before the first character of another one does not help. -/
theorem exists_isBroken_of_start_after {c : Char} {token : Token} {tokens : List Token}
    (h : (let (tokens, next) := start c; (token :: tokens, next)) = (tokens, none)) :
  ∃ token ∈ tokens, token.IsBroken
  := by
  match hstart : start c with
  | (first, next) =>
    rw [hstart] at h
    cases h
    obtain ⟨broken, hmem, hbroken⟩ := exists_isBroken_of_start hstart
    exact ⟨broken, List.mem_cons_of_mem token hmem, hbroken⟩

/-- Where a text cannot be read on, a token says so. -/
theorem exists_isBroken_of_step {mode : Mode} {c : Char} {tokens : List Token}
    (h : mode.step c = (tokens, none)) :
  ∃ token ∈ tokens, token.IsBroken
  := by
  cases mode with
  | between => apply exists_isBroken_of_start h
  | word token left =>
    cases left with
    | nil => apply exists_isBroken_of_start_after h
    | cons expected left =>
      simp only [step] at h
      split at h
      · cases h
        exact ⟨_, List.mem_singleton.mpr rfl, trivial⟩
      · split at h <;> cases h
  | number numeral phase =>
    simp only [step] at h
    split at h
    · cases h
    · apply exists_isBroken_of_start_after h
    · cases h
      exact ⟨_, List.mem_singleton.mpr rfl, trivial⟩
  | string pieces =>
    simp only [step, stringStep] at h
    split at h
    · cases h
    · split at h
      · cases h
      · split at h
        · cases h
          exact ⟨_, List.mem_singleton.mpr rfl, isBroken_ofBrokenPieces _ _⟩
        · cases h
  | escape pieces =>
    simp only [step, escapeStep] at h
    split at h
    · cases h
    · split at h
      · cases h
      · cases h
        exact ⟨_, List.mem_singleton.mpr rfl, isBroken_ofBrokenPieces _ _⟩
  | code pieces bytes value =>
    simp only [step, codeStep] at h
    split at h
    · cases h
    · split at h
      · cases h
      · cases h
        exact ⟨_, List.mem_singleton.mpr rfl, isBroken_ofBrokenPieces _ _⟩

end Mode

/-- The tokens of a text in front of another one, if the first can be read to its end and the
second does not go on with its last number. -/
theorem scanFrom_append {mode : Mode} {text rest : List Char} (hrest : Numeral.Delimited rest)
    (h : ∀ token ∈ scanFrom mode text, ¬token.IsBroken) :
  scanFrom mode (text ++ rest) = scanFrom mode text ++ scanFrom .between rest
  := by
  induction text generalizing mode with
  | nil =>
    rw [scanFrom] at h ⊢
    cases mode with
    | between => rfl
    | number numeral phase =>
      rw [Mode.finish] at h ⊢
      split
      · next hphase => apply Numeral.scanFrom_ends hphase numeral hrest
      · next hphase =>
        rw [if_neg hphase] at h
        exact absurd trivial (h _ (List.mem_singleton.mpr rfl))
    | word token left => exact absurd trivial (h _ (List.mem_singleton.mpr rfl))
    | string pieces | escape pieces | code pieces =>
      exact absurd (isBroken_ofBrokenPieces _ _) (h _ (List.mem_singleton.mpr rfl))
  | cons c text ih =>
    rw [List.cons_append, scanFrom, scanFrom]
    rw [scanFrom] at h
    rcases hstep : mode.step c with ⟨tokens, next⟩
    rw [hstep] at h
    cases next with
    | some next =>
      have htext := ih fun token htoken => h token (List.mem_append_right tokens htoken)
      simp only [htext, List.append_assoc]
    | none =>
      obtain ⟨token, htoken, hbroken⟩ := Mode.exists_isBroken_of_step hstep
      exact absurd hbroken (h token htoken)

end Token

namespace Document

/-! ### Further frames -/

/-- The state with further frames around all that is open. -/
def State.onto (more : List Frame) : State → State
  | .value stack => .value (stack ++ more)
  | .firstItem stack => .firstItem (stack ++ more)
  | .nextItem items stack => .nextItem items (stack ++ more)
  | .afterItem items stack => .afterItem items (stack ++ more)
  | .firstKey stack => .firstKey (stack ++ more)
  | .nextKey members stack => .nextKey members (stack ++ more)
  | .colon members key stack => .colon members key (stack ++ more)
  | .afterMember members stack => .afterMember members (stack ++ more)
  | .done root => .complete root more

theorem onto_complete (doc : Doc) (stack more : List Frame) :
  (State.complete doc stack).onto more = .complete doc (stack ++ more)
  := by
  cases stack with
  | nil => rfl
  | cons frame stack => cases frame <;> rfl

theorem valueStep_onto {stack : List Frame} {token : Token} {next : State}
    (h : valueStep stack token = .ok next) (more : List Frame) :
  valueStep (stack ++ more) token = .ok (next.onto more)
  := by
  cases token <;> cases h <;> simp only [valueStep, onto_complete] <;> rfl

theorem keyStep_onto {members : List Member} {stack : List Frame} {token : Token} {next : State}
    (h : keyStep members stack token = .ok next) (more : List Frame) :
  keyStep members (stack ++ more) token = .ok (next.onto more)
  := by
  cases token <;> cases h
  rfl

theorem step_firstItem {token : Token} (h : token ≠ .closeArray) (stack : List Frame) :
  State.step token (.firstItem stack) = valueStep (.array [] :: stack) token
  := by
  cases token <;> first | rfl | contradiction

theorem step_nextItem {token : Token} (h : token ≠ .closeArray) (items : List Doc)
    (stack : List Frame) :
  State.step token (.nextItem items stack) = valueStep (.array items :: stack) token
  := by
  cases token <;> first | rfl | contradiction

theorem step_firstKey {token : Token} (h : token ≠ .closeObject) (stack : List Frame) :
  State.step token (.firstKey stack) = keyStep [] stack token
  := by
  cases token <;> first | rfl | contradiction

theorem step_nextKey {token : Token} (h : token ≠ .closeObject) (members : List Member)
    (stack : List Frame) :
  State.step token (.nextKey members stack) = keyStep members stack token
  := by
  cases token <;> first | rfl | contradiction

/-- A token does the same where further frames are open. -/
theorem step_onto {state next : State} {token : Token} (h : state.step token = .ok next)
    (more : List Frame) :
  (state.onto more).step token = .ok (next.onto more)
  := by
  cases state with
  | value stack => apply valueStep_onto h
  | firstItem stack =>
    by_cases htoken : token = .closeArray
    · subst htoken
      cases h
      rw [onto_complete]
      rfl
    · rw [step_firstItem htoken] at h
      rw [State.onto, step_firstItem htoken]
      apply valueStep_onto h
  | nextItem items stack =>
    by_cases htoken : token = .closeArray
    · subst htoken
      cases h
    · rw [step_nextItem htoken] at h
      rw [State.onto, step_nextItem htoken]
      apply valueStep_onto h
  | firstKey stack =>
    by_cases htoken : token = .closeObject
    · subst htoken
      cases h
      rw [onto_complete]
      rfl
    · rw [step_firstKey htoken] at h
      rw [State.onto, step_firstKey htoken]
      apply keyStep_onto h
  | nextKey members stack =>
    by_cases htoken : token = .closeObject
    · subst htoken
      cases h
    · rw [step_nextKey htoken] at h
      rw [State.onto, step_nextKey htoken]
      apply keyStep_onto h
  | afterItem items stack | afterMember members stack =>
    cases token <;> cases h
    · rw [onto_complete]
      rfl
    · rfl
  | colon members key stack =>
    cases token <;> cases h
    rfl
  | done root => cases h

/-! ### Complete documents -/

/-- No token past which the text cannot be read leads on to a state. -/
theorem not_isBroken_of_step {state next : State} {token : Token}
    (h : state.step token = .ok next) :
  ¬token.IsBroken
  := by
  intro hbroken
  cases token <;> cases hbroken <;> cases state <;> cases h

/-- The items of an array that is a tree are trees. -/
theorem exists_of_array {items : List Doc} {ending : Option Break} {json : Json}
    (h : Doc.array items ending = Doc.ofJson json) :
  ending = none ∧ ∀ item ∈ items, ∃ inner, item = Doc.ofJson inner
  := by
  cases json with
  | array trees =>
    obtain ⟨rfl, rfl⟩ := Doc.array.inj h
    use rfl
    rw [Doc.ofItems_eq_map, List.forall_mem_map]
    exact fun tree _ => ⟨_, rfl⟩
  | _ => cases h

/-- The members of an object that is a tree are trees. -/
theorem exists_of_object {members : List Member} {ending : Option Break} {json : Json}
    (h : Doc.object members ending = Doc.ofJson json) :
  ending = none ∧ ∀ member ∈ members, ∃ inner, member.2 = Doc.ofJson inner
  := by
  cases json with
  | object trees =>
    obtain ⟨rfl, rfl⟩ := Doc.object.inj h
    use rfl
    rw [Doc.ofMembers_eq_map, List.forall_mem_map]
    exact fun tree _ => ⟨_, rfl⟩
  | _ => cases h

/-- What is given up inside a document that is a tree is itself a tree. -/
theorem exists_of_abandon {doc : Doc} {stack : List Frame} {json : Json}
    (h : abandon doc stack = Doc.ofJson json) :
  ∃ inner, doc = Doc.ofJson inner
  := by
  induction stack generalizing doc with
  | nil => exact ⟨json, h⟩
  | cons frame stack ih =>
    cases frame with
    | array items =>
      obtain ⟨outer, houter⟩ := ih h
      apply (exists_of_array houter).2
      simp
    | object members key =>
      obtain ⟨outer, houter⟩ := ih h
      apply (exists_of_object houter).2 (key, doc)
      simp

/-- The text of a tree ends where nothing more may come. -/
theorem eq_done_of_finish {state : State} {json : Json} (h : state.finish = Doc.ofJson json) :
  state = .done (Doc.ofJson json)
  := by
  cases state with
  | done root => rw [show root = _ from h]
  | value stack | nextItem items stack | colon members key stack =>
    obtain ⟨inner, hinner⟩ := exists_of_abandon h
    cases inner <;> cases hinner
  | firstItem stack | afterItem items stack =>
    obtain ⟨inner, hinner⟩ := exists_of_abandon h
    cases (exists_of_array hinner).1
  | firstKey stack | nextKey members stack | afterMember members stack =>
    obtain ⟨inner, hinner⟩ := exists_of_abandon h
    cases (exists_of_object hinner).1

variable {state : State} {tokens : List Token} {json : Json}

/-- The tokens of a tree are read as the tree wherever a value may stand. -/
theorem ofTokensFrom_onto (h : ofTokensFrom state tokens = ⟨Doc.ofJson json, false⟩)
    (more : List Frame) (rest : List Token) :
  ofTokensFrom (state.onto more) (tokens ++ rest)
    = ofTokensFrom (.complete (Doc.ofJson json) more) rest
  := by
  induction tokens generalizing state with
  | nil =>
    rw [ofTokensFrom, Document.mk.injEq] at h
    rw [eq_done_of_finish h.1]
    rfl
  | cons token tokens ih =>
    rw [ofTokensFrom] at h
    cases hstep : state.step token with
    | error root =>
      rw [hstep] at h
      cases h
    | ok next =>
      rw [hstep] at h
      rw [List.cons_append, ofTokensFrom_step (step_onto hstep more)]
      apply ih h

/-- The text of a tree can be read to its end. -/
theorem not_isBroken_of_ofTokensFrom (h : ofTokensFrom state tokens = ⟨Doc.ofJson json, false⟩) :
  ∀ token ∈ tokens, ¬token.IsBroken
  := by
  induction tokens generalizing state with
  | nil => simp
  | cons token tokens ih =>
    rw [ofTokensFrom] at h
    cases hstep : state.step token with
    | error root =>
      rw [hstep] at h
      cases h
    | ok next =>
      rw [hstep] at h
      rw [List.forall_mem_cons]
      exact ⟨not_isBroken_of_step hstep, ih h⟩

/-- The text of a tree stands for the tree inside a longer text. -/
theorem ofTokensFrom_scan {text : String} (h : ofText text = ⟨Doc.ofJson json, false⟩)
    (stack : List Frame) {rest : List Char} (hrest : Numeral.Delimited rest) :
  ofTokensFrom (.value stack) (Token.scanFrom .between (text.toList ++ rest))
    = ofTokensFrom (.complete (Doc.ofJson json) stack) (Token.scanFrom .between rest)
  := by
  rw [Token.scanFrom_append hrest (not_isBroken_of_ofTokensFrom h)]
  apply ofTokensFrom_onto h stack

end Document

/-- The texts that are read as JSON are those of trees for which there is room. -/
theorem Json.ofText_eq_ok_iff {text : String} {json : Json} :
  ofText text = .ok json
    ↔ Document.ofText text = ⟨Doc.ofJson json, false⟩ ∧ json.depth ≤ fullRoom
  := by
  rw [ofText, Document.read_eq_ok_iff, Doc.readTree_eq_ok_iff]
  obtain ⟨root, followed⟩ := Document.ofText text
  simp only [Document.mk.injEq, Bool.not_eq_true]
  tauto

end StructuredQuery
