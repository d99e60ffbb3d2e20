import Mathlib.Tactic.Common
import StructuredQuery.Plan

/-!
# The operations of a plan

`Plan.children` lists the plans inside a plan in the order in which they are compiled, and
`Plan.operations` lists all operations of a plan: those inside an operation come before
it.  `Plan.induct` is induction over the tree by children.
-/

namespace StructuredQuery

namespace Plan

/-- The plans that stand directly inside a plan, in the order in which they are compiled:
what is boosted comes before what must match. -/
def children : Plan → List Plan
  | query plans | and plans | or plans => plans
  | not plan | propertiesFragment plan | documentFragment plan | locksFragment plan => [plan]
  | boost none boosting => [boosting]
  | boost (some matching) boosting => [boosting, matching]
  | qtext _ | term .. | directory _ | collection _ | document _ | range .. | value ..
  | word .. | collectionConstraint .. | custom .. | customGeospatial .. | geospatial ..
  | constraint .. | operatorState .. => []

mutual

/-- The operations of a plan in the order in which they are carried out. -/
def operations : Plan → List Plan
  | query plans => operationsList plans ++ [query plans]
  | and plans => operationsList plans ++ [and plans]
  | or plans => operationsList plans ++ [or plans]
  | not plan => operations plan ++ [not plan]
  | boost none boosting => operations boosting ++ [boost none boosting]
  | boost (some matching) boosting =>
    operations boosting ++ operations matching ++ [boost (some matching) boosting]
  | propertiesFragment plan => operations plan ++ [propertiesFragment plan]
  | documentFragment plan => operations plan ++ [documentFragment plan]
  | locksFragment plan => operations plan ++ [locksFragment plan]
  | plan => [plan]
termination_by structural plan => plan

/-- The operations of plans, those of one plan after those of the other. -/
def operationsList : List Plan → List Plan
  | [] => []
  | plan :: plans => operations plan ++ operationsList plans
termination_by structural plans => plans

end

theorem operationsList_eq (plans : List Plan) :
  operationsList plans = plans.flatMap operations
  := by
  induction plans with
  | nil => rfl
  | cons plan plans ih => rw [operationsList, ih, List.flatMap_cons]

/-- An operation comes after those of its children. -/
theorem operations_eq (plan : Plan) :
  plan.operations = plan.children.flatMap operations ++ [plan]
  := by
  cases plan with
  | boost matching boosting => cases matching <;> simp [operations, children]
  | _ => simp [operations, children, operationsList_eq]

theorem sizeOf_child_lt {plan child : Plan} (h : child ∈ plan.children) :
  sizeOf child < sizeOf plan
  := by
  cases plan with
  | query plans | and plans | or plans =>
    have hlist : sizeOf child < sizeOf plans := List.sizeOf_lt_of_mem h
    simp only [query.sizeOf_spec, and.sizeOf_spec, or.sizeOf_spec]
    omega
  | boost matching boosting =>
    cases matching with
    | none =>
      obtain rfl := List.mem_singleton.mp h
      simp only [boost.sizeOf_spec]
      omega
    | some matching =>
      simp only [children, List.mem_cons, List.not_mem_nil, or_false] at h
      simp only [boost.sizeOf_spec, Option.some.sizeOf_spec]
      rcases h with rfl | rfl
      · omega
      · omega
  | _ => simp_all [children]

/-- Induction over the tree: what holds of a plan whenever it holds of its children holds
of every plan. -/
theorem induct {motive : Plan → Prop}
    (step : ∀ plan, (∀ child ∈ plan.children, motive child) → motive plan) (plan : Plan) :
  motive plan
  := step plan fun child h => have := sizeOf_child_lt h; induct step child
termination_by sizeOf plan

/-- Plans that stand in a list are compiled one after the other. -/
theorem compileList_eq (config : Config) (plans : List Plan) :
  compileList config plans = plans.mapM (compile config)
  := by
  induction plans with
  | nil => rfl
  | cons plan plans ih => rw [compileList, ih, List.mapM_cons]

end Plan

end StructuredQuery
