import TreeQuery.Memo
import TreeQuery.Plan.OfQuery

/-!
# Answering queries

A planner answers queries over one tree. It remembers the last compiled filter, if its
configuration says so, which never shows in the answers.
-/

namespace TreeQuery

structure Planner where
  tree : Tree
  config : Config
  cache : Option (Memo Filter Compiled)

namespace Planner

/-- The number of the first placeholder. -/
def firstPlaceholder : UInt64 := 1

/-- A planner that has not answered anything. -/
def new (tree : Tree) (config : Config) : Planner :=
  ⟨tree, config, if config.cacheEnabled then some .empty else none⟩

def ofSchema (schema : Schema) (config : Config) : Except SchemaViolation Planner := do
  return new (← Tree.ofSchema schema) config

/-- The compiled form of a filter, by way of the cache if there is one. -/
def compile (p : Planner) (filter : Filter) : Except FilterFault Compiled × Planner :=
  match p.cache with
  | none => (filter.compile firstPlaceholder, p)
  | some memo =>
    let (compiled, memo) := memo.get filter (·.compile firstPlaceholder)
    (compiled, { p with cache := some memo })

/-- The statements of all selected entities under one filter. -/
def statements (p : Planner) (q : Query) (filter : Option SharedFilter) :
    Except PlanError (List (String × Statement)) :=
  q.select.keys.mapM fun name => do
    return (name, (← Plan.ofQuery p.tree p.config name q filter).statement)

/-- One statement for each selected entity, in the order of the selection, or the first thing that
is wrong with the query. -/
def answer (p : Planner) (q : Query) : Except PlanError (List (String × Statement)) × Planner :=
  match q.violation? p.tree.schema with
  | some violation => (.error (.query violation), p)
  | none =>
    match q.filter with
    | none => (p.statements q none, p)
    | some filter =>
      let (compiled, p) := p.compile filter
      match compiled with
      | .error fault => (.error (.query (.malformedFilter fault)), p)
      | .ok compiled => (p.statements q (some ⟨compiled, filter.mentions⟩), p)

end Planner

end TreeQuery
