import StructuredQuery.Proofs.Json.Embedding
import StructuredQuery.Proofs.Plan.Inside
import StructuredQuery.Proofs.Record

/-!
# Plans inside plans

A text stands for the same plan on its own and inside the text of another plan, with one
exception: where the name of the operation should stand, its number is refused on its own and
taken inside.
-/

namespace StructuredQuery

namespace Plan

/-! ### The plan inside a negation -/

/-- A tree that holds the negation of the plan of a tree. -/
def notTree (json : Json) : Json :=
  .object [(opKey, .string Op.not.label), ("query", json)]

/-- The text of the negation of the plan of a text. -/
def notText (text : String) : String :=
  "\x7b\"op\":\"not\",\"query\":" ++ text ++ "\x7d"

theorem depth_notTree (json : Json) :
  (notTree json).depth = json.depth + 1
  := by
  simp [notTree, Json.depth, Json.depthMembers]

theorem readNode_notTree (room : ℕ) (json : Json) :
  readNode (room + 1) (Doc.ofJson (notTree json)) = .not <$> readNode room (Doc.ofJson json)
  := by
  have hop : findOp none (Doc.ofMembers [(opKey, .string Op.not.label), ("query", json)])
      = .ok .not := by rfl
  rw [notTree, Doc.ofJson, readNode, hop]
  show _ <$> Fields.ofMembers _ ((.ok opKey, _) :: Doc.ofMembers [("query", json)]) none = _
  rw [Fields.ofMembers_cons_of_notMem (show opKey ∉ ["query"] by decide) rfl, Fields.required,
    Fields.ofMembers_cons json (by simp)]
  dsimp only
  cases readNode room (Doc.ofJson json) <;> rfl

/-- The characters of the negation are those of the plan, behind two keys and the operation. -/
theorem toList_notText (text : String) :
  (notText text).toList
    = '\x7b' :: (Json.quote opKey ++ ':' :: (Json.quote Op.not.label
      ++ ',' :: (Json.quote "query" ++ ':' :: (text.toList ++ ['\x7d']))))
  := by
  have hbefore : "\x7b\"op\":\"not\",\"query\":".toList
      = '\x7b' :: (Json.quote opKey ++ ':' :: (Json.quote Op.not.label
        ++ ',' :: (Json.quote "query" ++ [':']))) := by rfl
  have hafter : "\x7d".toList = ['\x7d'] := by rfl
  -- With `rw` the literals would be compared at the end.
  unfold notText
  rw [String.toList_append, String.toList_append, hbefore, hafter]
  simp only [List.cons_append, List.append_assoc, List.nil_append]

/-- The text of the negation holds the tree of the negation. -/
theorem ofText_notText {text : String} {json : Json}
    (h : Document.ofText text = ⟨Doc.ofJson json, false⟩) :
  Document.ofText (notText text) = ⟨Doc.ofJson (notTree json), false⟩
  := by
  rw [Document.ofText, Token.scan, toList_notText, Json.scanFrom_mark rfl, Json.scanFrom_key,
    Json.scanFrom_quote, Json.scanFrom_mark rfl, Json.scanFrom_key, Document.ofTokens]
  iterate 7 rw [Document.ofTokensFrom_step rfl]
  rw [Document.ofTokensFrom_scan h _ (Numeral.delimited_cons (by decide) [])]
  rfl

/-! ### Plans and their texts -/

/-- The plan of a negation is the negation of the plan, if there is room for it. -/
theorem ofTree_notTree {json : Json} (h : json.depth < fullRoom) :
  ofTree (notTree json) = .not <$> ofTree json
  := by
  have hroom : (notTree json).depth ≤ json.depth + 1 := Nat.le_of_eq (depth_notTree json)
  rw [← readNode_eq_ofTree hroom h, readNode_notTree,
    readNode_eq_ofTree (Nat.le_refl _) (Nat.le_of_lt h)]

theorem depth_notTree_iterate (n : ℕ) (json : Json) :
  (notTree^[n] json).depth = json.depth + n
  := by
  induction n with
  | zero => rfl
  | succ n ih => rw [Function.iterate_succ_apply', depth_notTree, ih, Nat.add_assoc]

theorem ofTree_notTree_iterate {n : ℕ} {json : Json} (h : json.depth + n ≤ fullRoom) :
  ofTree (notTree^[n] json) = not^[n] <$> ofTree json
  := by
  induction n with
  | zero => exact (id_map _).symm
  | succ n ih =>
    have hdepth : (notTree^[n] json).depth < fullRoom := by
      rw [depth_notTree_iterate]
      omega
    rw [Function.iterate_succ_apply', Function.iterate_succ', ofTree_notTree hdepth,
      ih (by omega), comp_map]

theorem namesOp_notTree_iterate {json : Json} (h : NamesOp json) (n : ℕ) :
  NamesOp (notTree^[n] json)
  := by
  cases n with
  | zero => exact h
  | succ n =>
    rw [Function.iterate_succ_apply']
    exact ⟨.not, rfl⟩

theorem ofText_notText_iterate {text : String} {json : Json}
    (h : Document.ofText text = ⟨Doc.ofJson json, false⟩) (n : ℕ) :
  Document.ofText (notText^[n] text) = ⟨Doc.ofJson (notTree^[n] json), false⟩
  := by
  induction n with
  | zero => exact h
  | succ n ih =>
    rw [Function.iterate_succ_apply', Function.iterate_succ_apply']
    apply ofText_notText ih

/-- The plan of a text is the plan of its tree, if that names its operation. -/
theorem ofText_eq_ok_iff {text : String} {json : Json} {plan : Plan}
    (h : Document.ofText text = ⟨Doc.ofJson json, false⟩) :
  ofText text = .ok plan ↔ json.depth ≤ fullRoom ∧ NamesOp json ∧ ofTree json = .ok plan
  := by
  rw [ofText, h, Document.read_eq_ok_iff, read_eq_ok_iff]
  constructor
  · rintro ⟨⟨tree, htree, hdepth, hop, hread⟩, -⟩
    obtain rfl := Doc.ofJson_injective htree
    exact ⟨hdepth, hop, hread⟩
  · rintro ⟨hdepth, hop, hread⟩
    exact ⟨⟨json, rfl, hdepth, hop, hread⟩, Bool.false_ne_true⟩

/-- Inside negations a text stands for the plan for which it stands on its own, if there is room
for them; and a text that is refused on its own is refused inside every plan, however deep it
stands there.  Both fail only for a text that gives the number of an operation for its name. -/
theorem ofText_negated {text : String} {json : Json} (h : Json.ofText text = .ok json) :
  (∀ {n plan}, Document.nesting text + n ≤ fullRoom →
    (ofText text = .ok plan
      ↔ ofText (notText^[n] text) = .ok (not^[n] plan) ∧ ¬NumbersOp json))
  ∧ ∀ {other outer whole}, Json.ofText other = .ok outer →
    Relation.ReflTransGen HoldsPlan outer json → ofText other = .ok whole →
      (∃ plan, ofText text = .ok plan) ∨ NumbersOp json
  := by
  obtain ⟨hdoc, hdepth⟩ := Json.ofText_eq_ok_iff.mp h
  constructor
  · intro n plan hnesting
    rw [Document.nesting, hdoc, Doc.depth_ofJson] at hnesting
    rw [ofText_eq_ok_iff hdoc, ofText_eq_ok_iff (ofText_notText_iterate hdoc n),
      depth_notTree_iterate, ofTree_notTree_iterate hnesting, Except.map_eq_ok_iff]
    constructor
    · rintro ⟨-, hnames, hplan⟩
      exact ⟨⟨hnesting, namesOp_notTree_iterate hnames n, plan, hplan, rfl⟩,
        not_numbersOp_of_namesOp hnames⟩
    · rintro ⟨⟨-, -, inner, hinner, hplan⟩, hnumbers⟩
      obtain rfl := Function.Injective.iterate (fun _ _ => Plan.not.inj) n hplan
      exact ⟨hdepth, (namesOp_or_numbersOp_of_readNode hinner).resolve_right hnumbers, hinner⟩
  · intro other outer whole hother hheld hwhole
    obtain ⟨hdocOther, hdepthOther⟩ := Json.ofText_eq_ok_iff.mp hother
    obtain ⟨-, -, hread⟩ := (ofText_eq_ok_iff hdocOther).mp hwhole
    obtain ⟨-, plan, hplan⟩ := exists_ofTree_of_holdsPlans hheld hdepthOther hread
    rcases namesOp_or_numbersOp_of_readNode hplan with hnames | hnumbers
    · exact Or.inl ⟨plan, (ofText_eq_ok_iff hdoc).mpr ⟨hdepth, hnames, hplan⟩⟩
    · exact Or.inr hnumbers

/-- A tree that holds the query of nothing, under some name of its operation. -/
def emptyTree (op : Json) : Json :=
  .object [(opKey, op), ("queries", .array [])]

/-- Named by its label, the query of nothing can stand inside 125 negations. -/
theorem ofText_negated_label :
  ofText (notText^[125] (emptyTree (.string Op.query.label)).compact)
    = .ok (not^[125] (.query []))
  := by
  have hdoc := Document.ofText_compact (emptyTree (.string Op.query.label))
  have hjson := Json.ofText_eq_ok_iff.mpr ⟨hdoc, by decide⟩
  have hnesting : Document.nesting (emptyTree (.string Op.query.label)).compact + 125
      ≤ fullRoom := by
    rw [Document.nesting_compact]
    decide
  have hplan : ofText (emptyTree (.string Op.query.label)).compact = .ok (.query []) :=
    (ofText_eq_ok_iff hdoc).mpr ⟨by decide, ⟨.query, rfl⟩, rfl⟩
  exact (((ofText_negated hjson).1 hnesting).mp hplan).1

/-- Named by its number, the query of nothing is refused on its own but not inside a negation. -/
theorem ofText_negated_number :
  ¬∀ (text : String) (json : Json), Json.ofText text = .ok json →
    Document.nesting text ≤ 126 →
      ∀ plan, ofText text = .ok plan ↔ ofText (notText text) = .ok (.not plan)
  := by
  intro h
  have hdoc := Document.ofText_compact (emptyTree (.number (.integer 0 (by decide))))
  have hjson := Json.ofText_eq_ok_iff.mpr ⟨hdoc, by decide⟩
  have hnesting : Document.nesting (emptyTree (.number (.integer 0 (by decide)))).compact
      ≤ 126 := by
    rw [Document.nesting_compact]
    decide
  have hinside := (ofText_eq_ok_iff (ofText_notText hdoc)).mpr ⟨by decide, ⟨.not, rfl⟩, rfl⟩
  have halone := (h _ _ hjson hnesting (.query [])).mpr hinside
  obtain ⟨-, hnames, -⟩ := (ofText_eq_ok_iff hdoc).mp halone
  exact not_numbersOp_of_namesOp hnames ⟨_, rfl⟩

end Plan

end StructuredQuery
