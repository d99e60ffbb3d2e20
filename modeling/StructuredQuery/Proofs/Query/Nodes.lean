import Mathlib.Tactic.Common
import StructuredQuery.Query

/-!
# The nodes of a query

`Query.children` lists the queries that stand directly inside a query, and
`Query.Everywhere` says that a property holds at every node of the tree.  `Query.induct`
is induction over the tree by children.
-/

namespace StructuredQuery

namespace Query

/-- The queries that stand directly inside a query. -/
def children : Query → List Query
  | query queries | and queries _ | or queries => queries
  | not child | propertiesFragment child | documentFragment child | locksFragment child =>
    [child]
  | boost matching boosting => [matching, boosting]
  | qtext _ | term .. | directory .. | collection _ | document _ | rangeConstraint ..
  | valueConstraint .. | wordConstraint .. | collectionConstraint .. | customConstraint ..
  | customGeospatialConstraint .. | geospatialConstraint .. | operatorState .. => []

/-- The property holds at every node of the tree. -/
inductive Everywhere (property : Query → Prop) : Query → Prop where
  | intro {query : Query} (here : property query)
      (inside : ∀ child ∈ query.children, Everywhere property child) :
      Everywhere property query

theorem everywhere_iff {property : Query → Prop} {query : Query} :
  Everywhere property query
    ↔ property query ∧ ∀ child ∈ query.children, Everywhere property child
  := by
  constructor
  · rintro ⟨here, inside⟩
    use here
  · rintro ⟨here, inside⟩
    apply Everywhere.intro here inside

/-- What follows from the property at each node holds everywhere if the property does. -/
theorem Everywhere.imp {property other : Query → Prop} {query : Query}
    (h : Everywhere property query) (himp : ∀ node, property node → other node) :
  Everywhere other query
  := by
  induction h with
  | intro here _ ih => exact .intro (himp _ here) ih

theorem sizeOf_child_lt {query child : Query} (h : child ∈ query.children) :
  sizeOf child < sizeOf query
  := by
  cases query with
  | query queries | and queries _ | or queries =>
    have hlist : sizeOf child < sizeOf queries := List.sizeOf_lt_of_mem h
    simp only [query.sizeOf_spec, and.sizeOf_spec, or.sizeOf_spec]
    omega
  | boost matching boosting =>
    simp only [children, List.mem_cons, List.not_mem_nil, or_false] at h
    rcases h with rfl | rfl
    · simp only [boost.sizeOf_spec]
      omega
    · simp only [boost.sizeOf_spec]
      omega
  | _ => simp_all [children]

/-- Induction over the tree: what holds of a query whenever it holds of its children
holds of every query. -/
theorem induct {motive : Query → Prop}
    (step : ∀ query, (∀ child ∈ query.children, motive child) → motive query)
    (query : Query) :
  motive query
  := step query fun child h => have := sizeOf_child_lt h; induct step child
termination_by sizeOf query

/-- The weight of a query that has one. -/
def weight? : Query → Option Double
  | term _ weight | valueConstraint _ weight _ | wordConstraint _ _ weight => some weight
  | _ => none

end Query

end StructuredQuery
