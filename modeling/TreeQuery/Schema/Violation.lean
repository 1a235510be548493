import TreeQuery.Schema

/-!
# What keeps a schema from being a tree

Statements can be planned when the references of a schema, taken without their direction, form a
tree. The checks run in a fixed order and the first violation is the one reported: first every
entity and reference on its own, then references declared from both sides, then the shape of the
whole, by a depth-first walk from the first entity.
-/

namespace TreeQuery

/-- What is wrong with the columns of a reference. -/
inductive ReferenceFault
  | noColumns
  | unequalLengths (localCount foreignCount : Nat)
  | otherColumns (foreign identifier : List String)
  deriving DecidableEq

inductive SchemaViolation
  | danglingReference (entity referenced : String)
  | conflictingReference (entity referenced : String)
  | cyclic (entity : String)
  | disconnected (root : String) (unreachable : List String)
  | malformedReference (entity referenced : String) (fault : ReferenceFault)
  | emptyIdentifier (entity : String)
  deriving DecidableEq

def ReferenceFault.message (referenced : String) : ReferenceFault → String
  | .noColumns => "no foreign-key columns declared"
  | .unequalLengths localCount foreignCount =>
    s!"{localCount} local columns but {foreignCount} foreign columns"
  | .otherColumns foreign identifier =>
    "foreign columns " ++ Text.quotedList foreign ++ " do not match the identifier " ++
      Text.quotedList identifier ++ s!" of `{referenced}`"

def SchemaViolation.message : SchemaViolation → String
  | .danglingReference entity referenced =>
    s!"Entity `{entity}` references undefined entity `{referenced}`"
  | .conflictingReference entity referenced =>
    s!"Entities `{entity}` and `{referenced}` reference each other; " ++
      "a reference edge may only be declared once"
  | .cyclic entity => s!"Schema references form a cycle through entity `{entity}`"
  | .disconnected root unreachable =>
    "Schema is disconnected: entities " ++ Text.quotedList unreachable ++
      s!" cannot be reached from `{root}`"
  | .malformedReference entity referenced fault =>
    s!"Reference from `{entity}` to `{referenced}` is malformed: " ++ fault.message referenced
  | .emptyIdentifier entity => s!"Entity `{entity}` has an empty identifier"

/-- A reference has columns, and its foreign columns are the identifier they point at. -/
def Reference.fault? (r : Reference) (identifier : List String) : Option ReferenceFault :=
  if r.localColumns = [] then some .noColumns
  else if r.localColumns.length ≠ r.foreignColumns.length then
    some (.unequalLengths r.localColumns.length r.foreignColumns.length)
  else if r.foreignColumns ≠ identifier then some (.otherColumns r.foreignColumns identifier)
  else none

namespace Schema

/-- A reference leads to another entity of the schema and matches its identifier. -/
def referenceViolation? (s : Schema) (name referenced : String) (r : Reference) :
    Option SchemaViolation :=
  match s.entity? referenced with
  | none => some (.danglingReference name referenced)
  | some target =>
    if referenced = name then some (.cyclic name)
    else (r.fault? target.identifier).map (.malformedReference name referenced)

def entityViolation? (s : Schema) (name : String) (entity : Entity) : Option SchemaViolation :=
  if entity.identifier = [] then some (.emptyIdentifier name)
  else entity.references.entries.findSome? fun (referenced, r) =>
    s.referenceViolation? name referenced r

/-- The first entity or reference that is wrong by itself. -/
def declarationViolation? (s : Schema) : Option SchemaViolation :=
  s.entities.entries.findSome? fun (name, entity) => s.entityViolation? name entity

/-- The first reference that is answered by one in the other direction. -/
def conflictViolation? (s : Schema) : Option SchemaViolation :=
  s.entities.entries.findSome? fun (name, entity) =>
    (entity.references.keys.find? fun referenced => (s.reference? referenced name).isSome).map
      (.conflictingReference name)

/-- A walk that has yet to visit `unvisited`. The stack holds the entities to visit, each with the
one the walk came from, to which it does not turn back. An entity that comes up a second time lies
on a cycle; otherwise the walk ends with the entities it has not reached. -/
def walk (s : Schema) (unvisited : List String) :
    List (String × Option String) → Except SchemaViolation (List String)
  | [] => .ok unvisited
  | (name, cameFrom) :: stack =>
    if name ∈ unvisited then
      let onward := (s.neighbors name).filter (some · ≠ cameFrom)
      s.walk (unvisited.erase name) ((onward.map (·, some name)).reverse ++ stack)
    else .error (.cyclic name)
  termination_by unvisited.length
  decreasing_by
    rename_i h
    rw [List.length_erase_of_mem h]
    have := List.length_pos_of_mem h
    omega

/-- The walk from the first entity meets no entity twice and leaves none out. -/
def shapeViolation? (s : Schema) : Option SchemaViolation :=
  match s.names with
  | [] => none
  | root :: _ =>
    match s.walk s.names [(root, none)] with
    | .error violation => some violation
    | .ok [] => none
    | .ok unreachable => some (.disconnected root unreachable)

/-- The first violation in the order of the checks. -/
def violation? (s : Schema) : Option SchemaViolation :=
  s.declarationViolation?.or (s.conflictViolation?.or s.shapeViolation?)

end Schema

end TreeQuery
