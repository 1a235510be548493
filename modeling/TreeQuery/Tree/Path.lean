import TreeQuery.Tree
import TreeQuery.Query.Violation

/-!
# Paths and join orders

In a tree the first way on which a depth-first search meets an entity is the only path there is. A
join order brings the paths from one source to several targets together: each target adds the part
of its path that is not joined yet, attached to an entity that is.
-/

namespace TreeQuery

/-- Why a statement cannot be planned. On a tree and a query without violations none of these
happens; the last two would say that something other than a tree path was followed. -/
inductive PlanError
  | query (violation : QueryViolation)
  | notAdjacent (left right : String)
  | noPath (source target : String)
  deriving DecidableEq

def PlanError.message : PlanError → String
  | .query violation => violation.message
  | .notAdjacent left right =>
    s!"Entities `{left}` and `{right}` are not adjacent in the schema tree. " ++
      "This is an internal join planning error."
  | .noPath source target =>
    s!"No path from `{source}` to `{target}` in a connected schema tree. " ++
      "This is an internal join planning error."

/-- Entities to join one after another, the first of them to the anchor. -/
structure Segment where
  anchor : String
  entities : List String
  deriving DecidableEq

/-- Each joined entity with the one it is joined to. -/
def Segment.steps (segment : Segment) : List (String × String) :=
  (segment.anchor :: segment.entities).zip segment.entities

namespace Tree

/-- A search for the target that has yet to visit `unvisited`. The stack holds the entities to
visit, each with the way that led there, nearest entity first. -/
def search (t : Tree) (target : String) (unvisited : List String) :
    List (String × List String) → Option (List String)
  | [] => none
  | (name, trail) :: stack =>
    if name = target then some (name :: trail).reverse
    else if name ∈ unvisited then
      let onward := (t.neighbors name).filter (· ∈ unvisited.erase name)
      t.search target (unvisited.erase name) ((onward.map (·, name :: trail)).reverse ++ stack)
    else t.search target unvisited stack
  termination_by stack => (unvisited.length, stack.length)
  decreasing_by
    · rename_i h
      have := List.length_pos_of_mem h
      exact Prod.Lex.left _ _ (by rw [List.length_erase_of_mem h]; omega)
    · exact Prod.Lex.right _ (by simp)

/-- The path between two entities, both included. -/
def path (t : Tree) (source target : String) : Except PlanError (List String) :=
  match [source, target].find? (!t.contains ·) with
  | some missing => .error (.query (.unknownEntity missing))
  | none =>
    match t.search target t.schema.names [(source, [])] with
    | some path => .ok path
    | none => .error (.noPath source target)

/-- The part of a path behind its leading run of joined entities, anchored at the last of them. -/
def newSegment? (joined path : List String) : Option Segment :=
  let known := path.takeWhile (joined.contains ·)
  match known.getLast?, path.drop known.length with
  | some anchor, entity :: entities => some ⟨anchor, entity :: entities⟩
  | _, _ => none

/-- The segments that a list of targets adds to the entities joined so far. -/
def segmentsFrom (t : Tree) (source : String) (joined : List String) :
    List String → Except PlanError (List Segment)
  | [] => .ok []
  | target :: targets => do
    let path ← t.path source target
    match newSegment? joined path with
    | none => t.segmentsFrom source joined targets
    | some segment =>
      let segments ← t.segmentsFrom source (joined ++ segment.entities) targets
      return segment :: segments

/-- The segments that join a source to all targets, in the order of the targets. -/
def joinOrder (t : Tree) (source : String) (targets : List String) :
    Except PlanError (List Segment) :=
  if t.contains source then t.segmentsFrom source [source] targets
  else .error (.query (.unknownEntity source))

end Tree

/-- The source and every entity that the segments join, in order. -/
def covered (source : String) (segments : List Segment) : List String :=
  source :: segments.flatMap Segment.entities

end TreeQuery
