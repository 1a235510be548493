import TreeQuery.Filter

/-!
# What keeps a query from being answered
-/

namespace TreeQuery

/-- What is wrong with the shape of a filter node. Where a token was read it is kept as written. -/
inductive FilterFault
  | unknownOperator (token : String)
  | operandsOnLogical (token : String)
  | filtersOnLeaf (token : String)
  | missingOperand (token : String)
  | arity (operator : Operator) (count : Nat)
  deriving DecidableEq

inductive QueryViolation
  | unknownEntity (entity : String)
  | unknownAttribute (entity name : String)
  | malformedFilter (fault : FilterFault)
  deriving DecidableEq

/-- The operator that a fault is reported at. -/
def FilterFault.operatorText : FilterFault → String
  | .unknownOperator token => token
  | .operandsOnLogical token => token
  | .filtersOnLeaf token => token
  | .missingOperand token => token
  | .arity operator _ => operator.sql

def FilterFault.reason : FilterFault → String
  | .unknownOperator _ => "unknown operator"
  | .operandsOnLogical _ => "logical operators take nested filters, not variables"
  | .filtersOnLeaf _ => "only logical operators take nested filters"
  | .missingOperand _ => "missing variable"
  | .arity operator count =>
    "expects " ++ operator.arity.text ++
      (if operator.isLogical then " nested filters" else " variables") ++ s!", got {count}"

def QueryViolation.message : QueryViolation → String
  | .unknownEntity entity => s!"Unknown entity `{entity}`"
  | .unknownAttribute entity name => s!"Unknown attribute `{name}` on entity `{entity}`"
  | .malformedFilter fault =>
    "Malformed filter at operator `" ++ fault.operatorText ++ "`: " ++ fault.reason

/-- The fault of an operator that is given a number of parts it does not admit. -/
def Operator.arityFault? (operator : Operator) (count : Nat) : Option FilterFault :=
  if operator.arity.admits count then none else some (.arity operator count)

/-- The fault of a node itself, whatever its children are. -/
def Filter.fault? (node : Filter) : Option FilterFault :=
  node.operator.arityFault? node.count

end TreeQuery
