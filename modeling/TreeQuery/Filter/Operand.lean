import TreeQuery.Binary64

/-!
# Operands
-/

namespace TreeQuery

/-- A value that a filter compares with. Literals are never part of the SQL text: they are handed
over beside it. -/
inductive Literal
  | text (s : String)
  | integer (n : Int64)
  | float (x : Binary64)
  | null
  deriving DecidableEq

inductive Operand
  | column (entity name : String)
  | literal (value : Literal)
  deriving DecidableEq

/-- The entity that an operand mentions. -/
def Operand.entity? : Operand → Option String
  | .column entity _ => some entity
  | .literal _ => none

end TreeQuery
