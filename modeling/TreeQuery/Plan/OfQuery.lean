import TreeQuery.Config
import TreeQuery.Filter.Compiled
import TreeQuery.Plan
import TreeQuery.Query
import TreeQuery.Tree.Path

/-!
# Planning a statement

The statement for a selected entity asks for its attributes and for the columns that tie its rows
to those of other selected entities. A filter reaches it as a subquery over the keys of the entity,
which joins every entity that the filter mentions along the paths of the tree.
-/

namespace TreeQuery

open Sql (Column)

/-- A compiled filter with the entities that it mentions, in order. -/
structure SharedFilter where
  compiled : Compiled
  mentions : List String

namespace Tree

/-- The columns of two adjacent entities that have to be equal, in the order of the reference and
with `left` on the left. -/
def joinConditions (t : Tree) (left right : String) : Except PlanError (List JoinCondition) :=
  match t.edge? left right with
  | none => .error (.notAdjacent left right)
  | some edge => .ok <| edge.reference.pairs.map fun (own, foreign) =>
    if edge.referring = left then ⟨⟨left, own⟩, ⟨right, foreign⟩⟩
    else ⟨⟨left, foreign⟩, ⟨right, own⟩⟩

/-- The join of the right side of a step to its left side. -/
def joinStep (t : Tree) (step : String × String) : Except PlanError Join := do
  return ⟨step.2, ← t.joinConditions step.1 step.2⟩

/-- The joins of all segments in order. -/
def joins (t : Tree) (segments : List Segment) : Except PlanError (List Join) :=
  (segments.flatMap Segment.steps).mapM t.joinStep

/-- The table expressions of entities. -/
def ctes (t : Tree) (names : List String) : Except PlanError (List String) :=
  names.mapM fun name =>
    match t.entity? name with
    | some entity => .ok entity.cte
    | none => .error (.query (.unknownEntity name))

end Tree

/-- The attributes asked for, the identifier column, and a column for each referenced entity that
is selected too. -/
def selectColumns (config : Config) (name : String) (entity : Entity)
    (attributes : OrderedSet String) (q : Query) : List Column :=
  let references := entity.references.keys.filter q.selects
  (attributes.toList ++ config.identifierColumn :: references.map config.referenceColumn).map
    (Column.mk name)

namespace Plan

/-- The plan for one entity that the query selects. -/
def ofQuery (t : Tree) (config : Config) (name : String) (q : Query)
    (filter : Option SharedFilter) : Except PlanError Plan := do
  match t.entity? name, q.select.get? name with
  | some entity, some attributes =>
    let segments ← t.joinOrder name ((filter.map SharedFilter.mentions).getD [])
    let ctes ← t.ctes (covered name segments)
    let select := selectColumns config name entity attributes q
    match filter with
    | none => return ⟨ctes, select, name, none, []⟩
    | some context =>
      let joins ← t.joins segments
      return ⟨ctes, select, name,
        some ⟨name, entity.identifier, joins, context.compiled.sql⟩, context.compiled.binds⟩
  | _, _ => .error (.query (.unknownEntity name))

end Plan

end TreeQuery
