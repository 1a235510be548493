import TreeQuery.Schema.Violation

/-!
# Schema trees

A schema whose references form a tree: between any two of its entities there is exactly one path.
-/

namespace TreeQuery

/-- A schema that passes every check. -/
structure Tree where
  schema : Schema
  accepted : schema.violation? = none

namespace Tree

/-- The tree of a schema, or the first thing that keeps it from being one. -/
def ofSchema (schema : Schema) : Except SchemaViolation Tree :=
  match h : schema.violation? with
  | none => .ok ⟨schema, h⟩
  | some violation => .error violation

def entity? (t : Tree) (name : String) : Option Entity := t.schema.entity? name

def contains (t : Tree) (name : String) : Bool := t.schema.contains name

def neighbors (t : Tree) (name : String) : List String := t.schema.neighbors name

def adjacent (t : Tree) (a b : String) : Bool := (t.neighbors a).contains b

/-- A declared reference with the entities at its two ends. -/
structure Edge where
  referring : String
  referenced : String
  reference : Reference
  deriving DecidableEq

/-- The reference between two entities, from whichever side it is declared. -/
def edge? (t : Tree) (a b : String) : Option Edge :=
  match t.schema.reference? a b with
  | some r => some ⟨a, b, r⟩
  | none => (t.schema.reference? b a).map fun r => ⟨b, a, r⟩

end Tree

end TreeQuery
