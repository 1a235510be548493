import TreeQuery.Query.Violation

/-!
# Written filters

The form in which filters are exchanged: an operator token with nested filters or operands, before
anything about it has been checked.

* `Filter.ofWritten`: the filter that is meant, or the first fault: a node's token comes before the
  kind of its parts, their number, and then its children from left to right;
* `Filter.toWritten`: the written form with the operators in their SQL spelling.
-/

namespace TreeQuery

inductive WrittenFilter
  | node (token : String) (filters : Option (List WrittenFilter)) (operands : Option (List Operand))

namespace Filter

/-- The next of the operands of a node, with those behind it. -/
def takeOperand (token : String) : List Operand → Except FilterFault (Operand × List Operand)
  | [] => .error (.missingOperand token)
  | operand :: rest => .ok (operand, rest)

/-- The node of an operator that takes operands, made of as many as its family has places for. -/
def ofOperands (token : String) (operands : List Operand) : Operator → Except FilterFault Filter
  | .logical _ => .error (.operandsOnLogical token)
  | .comparison op => do
    let (left, rest) ← takeOperand token operands
    let (right, _) ← takeOperand token rest
    return .comparison op left right
  | .range op => do
    let (subject, rest) ← takeOperand token operands
    let (low, rest) ← takeOperand token rest
    let (high, _) ← takeOperand token rest
    return .range op subject low high
  | .membership op => do
    let (subject, candidates) ← takeOperand token operands
    return .membership op subject candidates

mutual
def ofWritten : WrittenFilter → Except FilterFault Filter
  | .node token filters operands =>
    match Operator.parse? token with
    | none => .error (.unknownOperator token)
    | some (.logical op) =>
      match operands with
      | some _ => .error (.operandsOnLogical token)
      | none =>
        match (Operator.logical op).arityFault? (filters.getD []).length with
        | some fault => .error fault
        | none =>
          match filters with
          | none => .ok (.logical op [])
          | some filters => (ofAllWritten filters).map (.logical op)
    | some operator =>
      match filters with
      | some _ => .error (.filtersOnLeaf token)
      | none =>
        match operator.arityFault? (operands.getD []).length with
        | some fault => .error fault
        | none => ofOperands token (operands.getD []) operator

/-- The filters that a list of written ones means, or the fault of the first that is wrong. -/
def ofAllWritten : List WrittenFilter → Except FilterFault (List Filter)
  | [] => .ok []
  | written :: rest => do
    let filter ← ofWritten written
    let filters ← ofAllWritten rest
    return filter :: filters
end

mutual
def toWritten : Filter → WrittenFilter
  | .logical op children => .node op.sql (some (toAllWritten children)) none
  | .comparison op left right => .node op.sql none (some [left, right])
  | .range op subject low high => .node op.sql none (some [subject, low, high])
  | .membership op subject candidates => .node op.sql none (some (subject :: candidates))

def toAllWritten : List Filter → List WrittenFilter
  | [] => []
  | filter :: rest => toWritten filter :: toAllWritten rest
end

end Filter

end TreeQuery
