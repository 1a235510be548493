import TreeQuery.Ordered.Set
import TreeQuery.Ordered.Map
import TreeQuery.Text.Quoted

/-!
# Schemas

A schema names entities, and an entity says which attributes may be asked for, which columns
identify a row, and which other entities its rows refer to. A schema by itself is only a
description: `TreeQuery.Tree` holds the ones that statements can be planned for.
-/

namespace TreeQuery

/-- The columns of a referring entity and the identifier columns that they match, by position. -/
structure Reference where
  localColumns : List String
  foreignColumns : List String
  deriving DecidableEq

/-- The matching columns; a column without a partner is left out. -/
def Reference.pairs (r : Reference) : List (String × String) :=
  r.localColumns.zip r.foreignColumns

structure Entity where
  /-- What a query may select or filter on. -/
  attributes : OrderedSet String
  /-- The key columns in order. -/
  identifier : List String
  references : OrderedMap String Reference
  /-- The body of the table expression that stands for the entity, used as it is. -/
  cte : String
  deriving DecidableEq

/-- The entities by name, in the order of their declaration. -/
structure Schema where
  entities : OrderedMap String Entity
  deriving DecidableEq

namespace Schema

def empty : Schema := ⟨.empty⟩

/-- Declares an entity; a name that is declared again keeps its place. -/
def insert (s : Schema) (name : String) (entity : Entity) : Schema :=
  ⟨s.entities.insert name entity⟩

/-- The schema without one of its entities. -/
def erase (s : Schema) (name : String) : Schema := ⟨s.entities.erase name⟩

def entity? (s : Schema) (name : String) : Option Entity := s.entities.get? name

def contains (s : Schema) (name : String) : Bool := s.entities.contains name

def names (s : Schema) : List String := s.entities.keys

def size (s : Schema) : Nat := s.entities.size

def isEmpty (s : Schema) : Bool := s.entities.isEmpty

/-- The reference that one entity declares to another. -/
def reference? (s : Schema) (entity referenced : String) : Option Reference := do
  (← s.entity? entity).references.get? referenced

/-- The entities that share a reference with `name`, in the order of the declarations: its own
references where it is declared itself, and elsewhere the entity that refers to it. -/
def neighbors (s : Schema) (name : String) : List String :=
  s.entities.entries.flatMap fun (other, entity) =>
    if other = name then entity.references.keys
    else if entity.references.contains name then [other]
    else []

end Schema

end TreeQuery
