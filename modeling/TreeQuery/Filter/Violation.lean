import TreeQuery.Schema
import TreeQuery.Query.Violation

/-!
# Filters over a schema

Both walks keep the filters that are still to be read on a stack, children in front, so that they
read a filter from left to right, a node before its children, at any depth.

* `Filter.violation?`: the first node of a wrong shape, or operand that the schema does not know;
* `Filter.mentions`: the entities that the operands name, in the order of their first mention.
-/

namespace TreeQuery

/-- An attribute operand names a declared attribute of an entity of the schema. -/
def Operand.violation? (schema : Schema) : Operand → Option QueryViolation
  | .literal _ => none
  | .column entity name =>
    match schema.entity? entity with
    | none => some (.unknownEntity entity)
    | some declared =>
      if declared.attributes.contains name then none else some (.unknownAttribute entity name)

namespace Filter

/-- The violation of a node itself: its shape first, then its operands. -/
def ownViolation? (schema : Schema) (node : Filter) : Option QueryViolation :=
  match node.fault? with
  | some fault => some (.malformedFilter fault)
  | none => node.operands.findSome? (·.violation? schema)

/-- The first violation in a stack of filters. -/
def firstViolation? (schema : Schema) : List Filter → Option QueryViolation
  | [] => none
  | node :: stack =>
    match node.ownViolation? schema with
    | some violation => some violation
    | none => firstViolation? schema (node.children ++ stack)
  termination_by stack => sizeOf stack
  decreasing_by
    have := sizeOf_children_lt node
    have := sizeOf_append node.children stack
    simp only [List.cons.sizeOf_spec]
    omega

/-- The first violation of a filter. -/
def violation? (schema : Schema) (filter : Filter) : Option QueryViolation :=
  firstViolation? schema [filter]

/-- The entities seen so far and those that a stack of filters adds. -/
def collectMentions (seen : OrderedSet String) : List Filter → OrderedSet String
  | [] => seen
  | node :: stack =>
    collectMentions (seen.insertMany (node.operands.filterMap (·.entity?))) (node.children ++ stack)
  termination_by stack => sizeOf stack
  decreasing_by
    have := sizeOf_children_lt node
    have := sizeOf_append node.children stack
    simp only [List.cons.sizeOf_spec]
    omega

/-- The entities that a filter mentions. -/
def mentions (filter : Filter) : List String :=
  (collectMentions .empty [filter]).toList

end Filter

end TreeQuery
