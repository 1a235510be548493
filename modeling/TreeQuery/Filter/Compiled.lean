import TreeQuery.Query.Violation
import TreeQuery.Sql.Identifier

/-!
# Compiled filters

A filter becomes one boolean SQL expression. Its literals are taken out, from left to right, and
leave numbered placeholders behind: `:n` stands for the literal at place `n - first`. Placeholders
are numbered by 64-bit words, so that the largest number is followed by zero. Nested filters are
finished from the innermost outwards, with the open nodes around them held as a stack.
-/

namespace TreeQuery

/-- An expression with the literals that its placeholders stand for. -/
structure Compiled where
  sql : String
  binds : List Literal
  deriving DecidableEq

/-- The number of the next placeholder and the literals taken out so far. -/
structure Numbering where
  next : UInt64
  binds : List Literal

/-- The text of an operand: a quoted column, or the placeholder of a literal. -/
def Operand.sql : Operand → StateM Numbering String
  | .column entity name => pure (Sql.Column.sql ⟨entity, name⟩)
  | .literal value => fun numbering =>
    (s!":{numbering.next.toNat}", ⟨numbering.next + 1, numbering.binds ++ [value]⟩)

namespace Filter

/-- The text of a node without children. -/
def leafSql : Filter → StateM Numbering String
  | .logical _ _ => pure ""
  | .comparison op left right => do
    let left ← left.sql
    let right ← right.sql
    return left ++ " " ++ op.sql ++ " " ++ right
  | .range op subject low high => do
    let subject ← subject.sql
    let low ← low.sql
    let high ← high.sql
    return subject ++ " " ++ op.sql ++ " " ++ low ++ " AND " ++ high
  | .membership op subject candidates => do
    let subject ← subject.sql
    let candidates ← candidates.mapM Operand.sql
    return subject ++ " " ++ op.sql ++ " (" ++ Text.separated ", " candidates ++ ")"

/-- The text of a logical node around the finished texts of its children. -/
def logicalSql : LogicalOp → List String → String
  | .not, parts => "NOT " ++ Text.separated " " parts
  | op, parts => Text.separated (" " ++ op.sql ++ " ") parts

end Filter

/-- A node under way: the children that are still to be compiled and the texts of the others. -/
structure OpenNode where
  filter : Filter
  pending : List Filter
  parts : List String

namespace OpenNode

def ofFilter (node : Filter) : OpenNode := ⟨node, node.children, []⟩

/-- The text of a node all of whose children are compiled. -/
def finish (node : OpenNode) : StateM Numbering String :=
  match node.filter with
  | .logical op _ => pure (Filter.logicalSql op node.parts)
  | leaf => leaf.leafSql

/-- Adds the text of a child, in parentheses. -/
def addPart (node : OpenNode) (sql : String) : OpenNode :=
  { node with parts := node.parts ++ ["(" ++ sql ++ ")"] }

/-- What is left to do in an open node. -/
noncomputable def weight (node : OpenNode) : Nat := 1 + sizeOf node.pending

/-- What is left to do in all of some open nodes. -/
noncomputable def weights : List OpenNode → Nat
  | [] => 0
  | node :: nodes => node.weight + weights nodes

end OpenNode

namespace Filter

/-- Compiles the next child of the innermost open node, or closes that node and goes on with the one
around it. A child of a wrong shape ends the work. -/
def compileOpen (numbering : Numbering) : OpenNode → List OpenNode → Except FilterFault Compiled
  | ⟨node, child :: rest, parts⟩, outer =>
    match child.fault? with
    | some fault => .error fault
    | none => compileOpen numbering (.ofFilter child) (⟨node, rest, parts⟩ :: outer)
  | ⟨node, [], parts⟩, outer =>
    let (sql, numbering) := OpenNode.finish ⟨node, [], parts⟩ numbering
    match outer with
    | [] => .ok ⟨sql, numbering.binds⟩
    | parent :: outer => compileOpen numbering (parent.addPart sql) outer
  termination_by node outer => node.weight + OpenNode.weights outer
  decreasing_by
    · have := sizeOf_children_lt child
      simp only [OpenNode.weights, OpenNode.weight, OpenNode.ofFilter, List.cons.sizeOf_spec]
      omega
    · simp only [OpenNode.weights, OpenNode.weight, OpenNode.addPart]
      omega

/-- The expression of a filter with placeholders numbered from `first`, or the fault of the first
node, from left to right, whose shape its operator does not admit. -/
def compile (filter : Filter) (first : UInt64) : Except FilterFault Compiled :=
  match filter.fault? with
  | some fault => .error fault
  | none => compileOpen ⟨first, []⟩ (.ofFilter filter) []

end Filter

end TreeQuery
