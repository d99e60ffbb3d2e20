import Mathlib.Data.List.Perm.Basic
import Mathlib.Data.Set.List
import Mathlib.Tactic.Common
import StructuredQuery.Proofs.Except
import StructuredQuery.Proofs.Reading

/-!
# The order of members

`Doc.Reordered` says that two documents differ at most in the order in which the members of
their objects come, at any depth.  If no object has two members of one key, then a tree that is
reordered is a tree again, as deep as before and with the same canonical form.
-/

namespace StructuredQuery

namespace Json

/-! ### Sorting permuted members -/

theorem perm_insertMember {key : String} (value : Json) {members : List (String × Json)}
    (h : key ∉ members.map Prod.fst) :
  (insertMember key value members).Perm ((key, value) :: members)
  := by
  induction members with
  | nil => rfl
  | cons head rest ih =>
    obtain ⟨own, other⟩ := head
    rw [List.map_cons, List.mem_cons, not_or] at h
    rw [insertMember]
    split
    · rfl
    · split
      · exact ((ih h.2).cons _).trans (List.Perm.swap ..)
      · next hkey hown =>
        exact absurd (String.le_antisymm (String.not_lt.mp hown) (String.not_lt.mp hkey)) h.1

/-- Sorting members of distinct keys loses none of them. -/
theorem perm_sortMembers {members : List (String × Json)} (h : (members.map Prod.fst).Nodup) :
  (sortMembers members).Perm members
  := by
  suffices ∀ sorted, ((members ++ sorted).map Prod.fst).Nodup →
      (members.foldl (fun sorted member => insertMember member.1 member.2 sorted) sorted).Perm
        (members ++ sorted) by
    have hall := this [] (by rwa [List.append_nil])
    rwa [List.append_nil] at hall
  clear h
  induction members with
  | nil => exact fun sorted _ => List.Perm.refl sorted
  | cons member members ih =>
    intro sorted h
    have hmiddle : (member :: members ++ sorted).Perm (members ++ member :: sorted) :=
      List.perm_middle.symm
    have hinsert : (insertMember member.1 member.2 sorted).Perm (member :: sorted) := by
      apply perm_insertMember
      rw [List.cons_append, List.map_cons, List.nodup_cons, List.map_append] at h
      exact fun hkey => h.1 (List.mem_append_right _ hkey)
    have hall := hmiddle.trans (hinsert.symm.append_left members)
    exact (ih _ ((hall.map Prod.fst).nodup_iff.mp h)).trans hall.symm

theorem sorted_sortMembers (members : List (String × Json)) :
  Sorted (sortMembers members)
  := by
  apply List.foldlRecOn (motive := Sorted) members
  · exact List.Pairwise.nil
  · exact fun sorted hsorted member _ => sorted_insertMember hsorted

theorem eq_of_perm_of_sorted {members others : List (String × Json)} (h : members.Perm others)
    (hmembers : Sorted members) (hothers : Sorted others) :
  members = others
  := by
  apply List.Perm.eq_of_pairwise _ (List.pairwise_map.mp hmembers) (List.pairwise_map.mp hothers) h
  intro a b _ _ hlt hgt
  exact absurd hgt (String.lt_asymm hlt)

/-- Sorting forgets the order of members of distinct keys. -/
theorem sortMembers_eq_of_perm {members others : List (String × Json)} (h : members.Perm others)
    (hkeys : (members.map Prod.fst).Nodup) :
  sortMembers members = sortMembers others
  := by
  have hothers : (others.map Prod.fst).Nodup := (h.map Prod.fst).nodup_iff.mp hkeys
  apply eq_of_perm_of_sorted _ (sorted_sortMembers members) (sorted_sortMembers others)
  exact (perm_sortMembers hkeys).trans (h.trans (perm_sortMembers hothers).symm)

/-- The trees have the same canonical form, and the same depth. -/
def Alike (json other : Json) : Prop :=
  json.canonical = other.canonical ∧ json.depth = other.depth

/-- Arrays of trees that are alike in pairs are alike. -/
theorem alike_array {pairs : List (Json × Json)} (h : ∀ pair ∈ pairs, Alike pair.1 pair.2) :
  Alike (.array (pairs.map Prod.fst)) (.array (pairs.map Prod.snd))
  := by
  constructor
  · simp only [canonical, canonicalItems_eq_map, List.map_map]
    congr 1
    exact List.map_congr_left fun pair hpair => (h pair hpair).1
  · simp only [depth]
    congr 1
    apply eq_of_forall_ge_iff
    intro room
    simp only [depthItems_le_iff, List.forall_mem_map]
    exact forall₂_congr fun pair hpair => by rw [(h pair hpair).2]

/-- Objects are alike if their members are alike in pairs and stand in any order. -/
theorem alike_object {pairs shuffled : List (String × Json × Json)} (hperm : pairs.Perm shuffled)
    (hkeys : (pairs.map Prod.fst).Nodup) (h : ∀ pair ∈ pairs, Alike pair.2.1 pair.2.2) :
  Alike (.object (pairs.map (Prod.map id Prod.fst))) (.object (shuffled.map (Prod.map id Prod.snd)))
  := by
  constructor
  · have hpairs : (pairs.map (Prod.map id Prod.fst)).map (Prod.map id canonical)
        = (pairs.map (Prod.map id Prod.snd)).map (Prod.map id canonical) := by
      simp only [List.map_map]
      apply List.map_congr_left
      intro pair hpair
      exact congrArg (pair.1, ·) (h pair hpair).1
    simp only [canonical, canonicalMembers_eq_map]
    rw [hpairs]
    congr 1
    apply sortMembers_eq_of_perm ((hperm.map _).map _)
    rw [List.map_map, List.map_map]
    exact hkeys
  · simp only [depth]
    congr 1
    apply eq_of_forall_ge_iff
    intro room
    simp only [depthMembers_le_iff, List.forall_mem_map, Prod.map_snd]
    trans ∀ pair ∈ pairs, pair.2.2.depth ≤ room
    · exact forall₂_congr fun pair hpair => by rw [(h pair hpair).2]
    · exact forall_congr' fun pair => imp_congr_left hperm.mem_iff

end Json

namespace Doc

/-! ### Documents without repeated keys -/

/-- The keys of members, as far as they can be read. -/
def keys (members : List Member) : List String :=
  members.filterMap fun member => member.1.toOption

theorem keys_cons {member : Member} {key : String} (h : member.1 = .ok key)
    (members : List Member) :
  keys (member :: members) = key :: keys members
  := by
  rw [keys, List.filterMap_cons, h]
  rfl

theorem keys_map {α : Type} (pairs : List (Key × α)) (part : α → Doc) :
  keys (pairs.map (Prod.map id part)) = pairs.filterMap fun pair => pair.1.toOption
  := by
  rw [keys, List.filterMap_map]
  rfl

mutual

/-- No object in the document has two members of one key. -/
def Unrepeated : Doc → Prop
  | .array items _ => UnrepeatedItems items
  | .object members _ => (keys members).Nodup ∧ UnrepeatedMembers members
  | _ => True
termination_by structural doc => doc

/-- No object in the items has two members of one key. -/
def UnrepeatedItems : List Doc → Prop
  | [] => True
  | item :: items => item.Unrepeated ∧ UnrepeatedItems items
termination_by structural items => items

/-- No object in the values of the members has two members of one key. -/
def UnrepeatedMembers : List Member → Prop
  | [] => True
  | (_, value) :: members => value.Unrepeated ∧ UnrepeatedMembers members
termination_by structural members => members

end

theorem unrepeatedItems_iff {items : List Doc} :
  UnrepeatedItems items ↔ ∀ item ∈ items, item.Unrepeated
  := by
  induction items with
  | nil => simp [UnrepeatedItems]
  | cons item items ih => rw [UnrepeatedItems, ih, List.forall_mem_cons]

theorem unrepeatedMembers_iff {members : List Member} :
  UnrepeatedMembers members ↔ ∀ member ∈ members, member.2.Unrepeated
  := by
  induction members with
  | nil => simp [UnrepeatedMembers]
  | cons member members ih => rw [UnrepeatedMembers, ih, List.forall_mem_cons]

theorem Unrepeated.filter {members : List Member} {ending : Option Break}
    (h : (Doc.object members ending).Unrepeated) (keep : Key → Bool) :
  (Doc.object (members.filter fun member => keep member.1) ending).Unrepeated
  := by
  rw [Unrepeated, unrepeatedMembers_iff] at h ⊢
  constructor
  · apply List.Nodup.sublist (List.filter_sublist.filterMap _) h.1
  · exact fun member hmember => h.2 member (List.mem_of_mem_filter hmember)

/-! ### Documents in another order -/

/-- The documents differ at most in the order of the members of their objects.  A pair of items,
or of members under one key, stands in the first and the second document. -/
inductive Reordered : Doc → Doc → Prop where
  | same (doc : Doc) : Reordered doc doc
  | array {pairs : List (Doc × Doc)} (h : ∀ pair ∈ pairs, Reordered pair.1 pair.2)
      (ending : Option Break) :
      Reordered (.array (pairs.map Prod.fst) ending) (.array (pairs.map Prod.snd) ending)
  | object {pairs shuffled : List (Key × Doc × Doc)}
      (h : ∀ pair ∈ pairs, Reordered pair.2.1 pair.2.2) (hperm : pairs.Perm shuffled)
      (ending : Option Break) :
      Reordered (.object (pairs.map (Prod.map id Prod.fst)) ending)
        (.object (shuffled.map (Prod.map id Prod.snd)) ending)

namespace Reordered

variable {doc other : Doc}

theorem symm (h : doc.Reordered other) :
  other.Reordered doc
  := by
  induction h with
  | same doc => exact .same doc
  | @array pairs _ ending ih =>
    have hswap : ∀ pair ∈ pairs.map Prod.swap, pair.1.Reordered pair.2 :=
      List.forall_mem_map.mpr ih
    have harray := array hswap ending
    rw [List.map_map, List.map_map] at harray
    apply harray
  | @object pairs shuffled _ hperm ending ih =>
    have hswap : ∀ pair ∈ shuffled.map (Prod.map id Prod.swap), pair.2.1.Reordered pair.2.2 :=
      List.forall_mem_map.mpr fun pair hpair => ih pair (hperm.mem_iff.mpr hpair)
    have hobject := object hswap (hperm.symm.map _) ending
    rw [List.map_map, List.map_map] at hobject
    apply hobject

/-- The items of an array stay where they are. -/
theorem of_array {items : List Doc} {ending : Option Break}
    (h : (Doc.array items ending).Reordered other) :
  ∃ pairs : List (Doc × Doc), items = pairs.map Prod.fst
    ∧ other = .array (pairs.map Prod.snd) ending ∧ ∀ pair ∈ pairs, pair.1.Reordered pair.2
  := by
  cases h with
  | same =>
    refine ⟨items.map fun item => (item, item), ?_, ?_, ?_⟩
    · simp [Function.comp_def]
    · simp [Function.comp_def]
    · exact List.forall_mem_map.mpr fun item _ => same item
  | array h => exact ⟨_, rfl, rfl, h⟩

/-- The first item of an array stays the first one. -/
theorem of_array_cons {item : Doc} {items : List Doc} {ending : Option Break}
    (h : (Doc.array (item :: items) ending).Reordered other) :
  ∃ moved others, other = .array (moved :: others) ending ∧ item.Reordered moved
    ∧ (Doc.array items ending).Reordered (.array others ending)
  := by
  obtain ⟨pairs, hitems, rfl, hpairs⟩ := h.of_array
  cases pairs with
  | nil => cases hitems
  | cons pair pairs =>
    obtain ⟨rfl, rfl⟩ := List.cons.inj hitems
    obtain ⟨hpair, hpairs⟩ := List.forall_mem_cons.mp hpairs
    exact ⟨pair.2, pairs.map Prod.snd, rfl, hpair, array hpairs ending⟩

/-- The members of an object stay under their keys. -/
theorem of_object {members : List Member} {ending : Option Break}
    (h : (Doc.object members ending).Reordered other) :
  ∃ pairs shuffled : List (Key × Doc × Doc), members = pairs.map (Prod.map id Prod.fst)
    ∧ other = .object (shuffled.map (Prod.map id Prod.snd)) ending ∧ pairs.Perm shuffled
    ∧ ∀ pair ∈ pairs, pair.2.1.Reordered pair.2.2
  := by
  cases h with
  | same =>
    refine ⟨members.map fun member => (member.1, member.2, member.2), _, ?_, ?_, .refl _, ?_⟩
    · simp [Function.comp_def]
    · simp [Function.comp_def]
    · exact List.forall_mem_map.mpr fun member _ => same member.2
  | object h hperm => exact ⟨_, _, rfl, rfl, hperm, h⟩

/-- The members of an object may be permuted. -/
theorem of_perm {members others : List Member} (h : members.Perm others)
    (ending : Option Break) :
  (Doc.object members ending).Reordered (.object others ending)
  := by
  have hsame : ∀ pair ∈ members.map fun member => (member.1, member.2, member.2),
      pair.2.1.Reordered pair.2.2 := List.forall_mem_map.mpr fun member _ => same member.2
  simpa [Function.comp_def] using object hsame (h.map _) ending

theorem exists_object {members : List Member} {ending : Option Break}
    (h : (Doc.object members ending).Reordered other) :
  ∃ others, other = .object others ending
  := by
  obtain ⟨pairs, shuffled, -, rfl, -⟩ := h.of_object
  exact ⟨_, rfl⟩

/-- What stands under a key stands there in the other document, reordered itself. -/
theorem exists_member {members others : List Member} {ending last : Option Break}
    (h : (Doc.object members ending).Reordered (.object others last)) {key : Key} {part : Doc}
    (hmember : (key, part) ∈ members) :
  ∃ moved, (key, moved) ∈ others ∧ part.Reordered moved
  := by
  obtain ⟨pairs, shuffled, rfl, hother, hperm, hpairs⟩ := h.of_object
  obtain ⟨rfl, -⟩ := Doc.object.inj hother
  obtain ⟨pair, hpair, heq⟩ := List.mem_map.mp hmember
  obtain ⟨rfl, rfl⟩ := Prod.mk.inj heq
  use pair.2.2
  constructor
  · apply List.mem_map_of_mem (f := Prod.map id Prod.snd) (hperm.mem_iff.mp hpair)
  · apply hpairs pair hpair

theorem ending_eq {members others : List Member} {ending last : Option Break}
    (h : (Doc.object members ending).Reordered (.object others last)) :
  ending = last
  := by
  obtain ⟨_, hother⟩ := h.exists_object
  exact (Doc.object.inj hother).2.symm

/-- Some of the members, chosen by their keys, come in another order too. -/
theorem filter {members others : List Member} {ending last : Option Break}
    (h : (Doc.object members ending).Reordered (.object others last)) (keep : Key → Bool) :
  (Doc.object (members.filter fun member => keep member.1) ending).Reordered
    (.object (others.filter fun member => keep member.1) last)
  := by
  obtain ⟨pairs, shuffled, rfl, hother, hperm, hpairs⟩ := h.of_object
  obtain ⟨rfl, rfl⟩ := Doc.object.inj hother
  rw [List.filter_map, List.filter_map]
  apply object _ (hperm.filter fun pair => keep pair.1)
  exact fun pair hpair => hpairs pair (List.mem_of_mem_filter hpair)

/-- An object with a single member keeps it. -/
theorem of_labelled {key : Key} {part : Doc} {ending : Option Break}
    (h : (Doc.object [(key, part)] ending).Reordered other) :
  ∃ last, other = .object [(key, last)] ending ∧ part.Reordered last
  := by
  obtain ⟨pairs, shuffled, hpairs, rfl, hperm, hparts⟩ := h.of_object
  obtain ⟨pair, rfl, hpair⟩ := List.map_eq_singleton_iff.mp hpairs.symm
  obtain rfl := List.perm_singleton.mp hperm.symm
  obtain ⟨rfl, rfl⟩ := Prod.mk.inj hpair
  exact ⟨pair.2.2, rfl, hparts pair List.mem_cons_self⟩

theorem labelled {part moved : Doc} (h : part.Reordered moved) (key : Key)
    (ending : Option Break) :
  (Doc.object [(key, part)] ending).Reordered (.object [(key, moved)] ending)
  := by
  have hpairs : ∀ pair ∈ [(key, part, moved)], pair.2.1.Reordered pair.2.2 :=
    List.forall_mem_singleton.mpr h
  apply object hpairs (.refl _) ending

theorem unrepeated (h : doc.Reordered other) (hkeys : doc.Unrepeated) :
  other.Unrepeated
  := by
  induction h with
  | same doc => exact hkeys
  | array _ ending ih =>
    rw [Unrepeated, unrepeatedItems_iff, List.forall_mem_map] at hkeys ⊢
    exact fun pair hpair => ih pair hpair (hkeys pair hpair)
  | @object pairs shuffled _ hperm ending ih =>
    rw [Unrepeated, unrepeatedMembers_iff, List.forall_mem_map] at hkeys ⊢
    constructor
    · rw [keys_map] at hkeys ⊢
      exact (hperm.filterMap _).nodup_iff.mp hkeys.1
    · exact fun pair hpair =>
        ih pair (hperm.mem_iff.mpr hpair) (hkeys.2 pair (hperm.mem_iff.mpr hpair))

end Reordered

/-! ### Trees in another order -/

theorem ofMembers_map {α : Type} (pairs : List (String × α)) (part : α → Json) :
  ofMembers (pairs.map (Prod.map id part))
    = pairs.map (Prod.map Except.ok fun source => ofJson (part source))
  := by
  rw [ofMembers_eq_map, List.map_map]
  rfl

theorem keys_ofMembers (members : List (String × Json)) :
  keys (ofMembers members) = members.map Prod.fst
  := by
  rw [keys, ofMembers_eq_map, List.filterMap_map, ← List.filterMap_eq_map]
  rfl

/-- What stands under a key of a tree stands there in the other tree, reordered itself. -/
theorem Reordered.exists_tree {members others : List (String × Json)}
    (h : (ofJson (.object members)).Reordered (ofJson (.object others))) {key : String}
    {json : Json} (hmember : (key, json) ∈ members) :
  ∃ tree, (key, tree) ∈ others ∧ (ofJson json).Reordered (ofJson tree)
  := by
  have hdoc : (.ok key, ofJson json) ∈ ofMembers members := by
    rw [ofMembers_eq_map]
    apply List.mem_map_of_mem hmember
  obtain ⟨moved, hmoved, hjson⟩ := h.exists_member hdoc
  rw [ofMembers_eq_map] at hmoved
  obtain ⟨member, hother, heq⟩ := List.mem_map.mp hmoved
  obtain ⟨⟨⟩, rfl⟩ := Prod.mk.inj heq
  exact ⟨member.2, hother, hjson⟩

/-- If the first of two documents is a tree, the second is one with the same data. -/
def Resolves (doc other : Doc) : Prop :=
  ∀ json, doc = ofJson json → ∃ tree, other = ofJson tree ∧ json.Alike tree

theorem exists_of_resolves_items {pairs : List (Doc × Doc)}
    (h : ∀ pair ∈ pairs, Resolves pair.1 pair.2) {items : List Json}
    (hitems : pairs.map Prod.fst = ofItems items) :
  ∃ trees : List (Json × Json), pairs = trees.map (Prod.map ofJson ofJson)
    ∧ ∀ tree ∈ trees, tree.1.Alike tree.2
  := by
  suffices hrange : pairs ∈ Set.range (List.map (Prod.map ofJson ofJson)) by
    obtain ⟨trees, rfl⟩ := hrange
    use trees, rfl
    intro tree htree
    obtain ⟨last, hlast, halike⟩ := List.forall_mem_map.mp h tree htree _ rfl
    rwa [ofJson_injective hlast]
  rw [Set.range_list_map]
  intro pair hpair
  have hitem : pair.1 ∈ ofItems items := hitems ▸ List.mem_map_of_mem hpair
  rw [ofItems_eq_map] at hitem
  obtain ⟨item, -, hitem⟩ := List.mem_map.mp hitem
  obtain ⟨tree, htree, -⟩ := h pair hpair item hitem.symm
  exact ⟨(item, tree), Prod.ext hitem htree.symm⟩

theorem exists_of_resolves_members {pairs : List (Key × Doc × Doc)}
    (h : ∀ pair ∈ pairs, Resolves pair.2.1 pair.2.2) {members : List (String × Json)}
    (hmembers : pairs.map (Prod.map id Prod.fst) = ofMembers members) :
  ∃ trees : List (String × Json × Json),
    pairs = trees.map (Prod.map Except.ok (Prod.map ofJson ofJson))
    ∧ ∀ tree ∈ trees, tree.2.1.Alike tree.2.2
  := by
  suffices hrange : pairs ∈ Set.range (List.map (Prod.map Except.ok (Prod.map ofJson ofJson))) by
    obtain ⟨trees, rfl⟩ := hrange
    use trees, rfl
    intro tree htree
    obtain ⟨last, hlast, halike⟩ := List.forall_mem_map.mp h tree htree _ rfl
    rwa [ofJson_injective hlast]
  rw [Set.range_list_map]
  intro pair hpair
  have hmember : Prod.map id Prod.fst pair ∈ ofMembers members :=
    hmembers ▸ List.mem_map_of_mem hpair
  rw [ofMembers_eq_map] at hmember
  obtain ⟨member, -, hmember⟩ := List.mem_map.mp hmember
  obtain ⟨hkey, hpart⟩ := Prod.ext_iff.mp hmember
  obtain ⟨tree, htree, -⟩ := h pair hpair member.2 hpart.symm
  exact ⟨(member.1, member.2, tree), Prod.ext hkey (Prod.ext hpart htree.symm)⟩

/-- A tree in another order is a tree again, with the same data. -/
theorem Reordered.resolves {doc other : Doc} (h : doc.Reordered other)
    (hkeys : doc.Unrepeated) :
  doc.Resolves other
  := by
  induction h with
  | same doc => exact fun json hdoc => ⟨json, hdoc, rfl, rfl⟩
  | @array pairs _ ending ih =>
    rw [Unrepeated, unrepeatedItems_iff, List.forall_mem_map] at hkeys
    intro json hdoc
    cases json with
    | array items =>
      obtain ⟨hitems, rfl⟩ := Doc.array.inj hdoc
      obtain ⟨trees, rfl, halike⟩ :=
        exists_of_resolves_items (fun pair hpair => ih pair hpair (hkeys pair hpair)) hitems
      have hfirst : Json.array items = .array (trees.map Prod.fst) := by
        apply ofJson_injective
        rw [← hdoc, ofJson, ofItems_map, List.map_map]
        rfl
      obtain rfl := Json.array.inj hfirst
      use .array (trees.map Prod.snd)
      constructor
      · rw [ofJson, ofItems_map, List.map_map]
        rfl
      · exact Json.alike_array halike
    | _ => cases hdoc
  | @object pairs shuffled _ hperm ending ih =>
    rw [Unrepeated, unrepeatedMembers_iff, List.forall_mem_map] at hkeys
    intro json hdoc
    cases json with
    | object members =>
      obtain ⟨hmembers, rfl⟩ := Doc.object.inj hdoc
      obtain ⟨trees, rfl, halike⟩ :=
        exists_of_resolves_members (fun pair hpair => ih pair hpair (hkeys.2 pair hpair)) hmembers
      have hfirst : Json.object members = .object (trees.map (Prod.map id Prod.fst)) := by
        apply ofJson_injective
        rw [← hdoc, ofJson, ofMembers_map, List.map_map]
        rfl
      obtain rfl := Json.object.inj hfirst
      obtain ⟨others, rfl, hothers⟩ :
          Relation.Comp (· = List.map (Prod.map Except.ok (Prod.map ofJson ofJson)) ·) List.Perm
            shuffled trees := by
        rw [List.eq_map_comp_perm]
        exact hperm.symm
      use .object (others.map (Prod.map id Prod.snd))
      constructor
      · rw [ofJson, ofMembers_map, List.map_map]
        rfl
      · apply Json.alike_object hothers.symm _ halike
        rw [hmembers, keys_ofMembers, List.map_map] at hkeys
        exact hkeys.1
    | _ => cases hdoc

/-! ### Reading over -/

theorem skipItems_eq_ok_iff {items : List Doc} :
  skipItems items = .ok () ↔ ∀ item ∈ items, item.skip = .ok ()
  := by
  induction items with
  | nil => simp [skipItems]
  | cons item items ih => rw [skipItems, Except.unit_bind_eq_ok_iff, ih, List.forall_mem_cons]

theorem skipMembers_eq_ok_iff {members : List Member} :
  skipMembers members = .ok () ↔ ∀ member ∈ members, member.2.skip = .ok ()
  := by
  induction members with
  | nil => simp [skipMembers]
  | cons member members ih => rw [skipMembers, Except.unit_bind_eq_ok_iff, ih, List.forall_mem_cons]

/-- What can be read over can be read over in any order. -/
theorem Reordered.skip {doc other : Doc} (h : doc.Reordered other) (hskip : doc.skip = .ok ()) :
  other.skip = .ok ()
  := by
  induction h with
  | same doc => exact hskip
  | array _ ending ih =>
    rw [Doc.skip, Except.unit_bind_eq_ok_iff, skipItems_eq_ok_iff,
      List.forall_mem_map] at hskip ⊢
    exact ⟨fun pair hpair => ih pair hpair (hskip.1 pair hpair), hskip.2⟩
  | object _ hperm ending ih =>
    rw [Doc.skip, Except.unit_bind_eq_ok_iff, skipMembers_eq_ok_iff,
      List.forall_mem_map] at hskip ⊢
    refine ⟨fun pair hpair => ?_, hskip.2⟩
    have hpair := hperm.mem_iff.mpr hpair
    exact ih pair hpair (hskip.1 pair hpair)

end Doc

/-- The two texts hold documents that differ at most in the order of members. -/
def Document.Reordered (document other : Document) : Prop :=
  document.root.Reordered other.root ∧ document.followed = other.followed

end StructuredQuery
