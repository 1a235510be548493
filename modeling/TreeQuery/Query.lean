import TreeQuery.Filter.Violation

/-!
# Queries

What is asked of a schema: attributes of some of its entities, and optionally a filter.
-/

namespace TreeQuery

structure Query where
  /-- The selected entities in order, each with its attributes in order. -/
  select : OrderedMap String (OrderedSet String)
  filter : Option Filter

namespace Query

def selects (q : Query) (entity : String) : Bool := q.select.contains entity

/-- A selected entity exists and declares the attributes asked of it. -/
def selectionViolation? (schema : Schema) (entity : String) (attributes : OrderedSet String) :
    Option QueryViolation :=
  match schema.entity? entity with
  | none => some (.unknownEntity entity)
  | some declared =>
    (attributes.toList.find? (!declared.attributes.contains ·)).map (.unknownAttribute entity)

/-- The first violation: the selection in its order, then the filter. -/
def violation? (schema : Schema) (q : Query) : Option QueryViolation :=
  (q.select.entries.findSome? fun (entity, attributes) =>
    selectionViolation? schema entity attributes).or
  (q.filter.bind (·.violation? schema))

end Query

end TreeQuery
