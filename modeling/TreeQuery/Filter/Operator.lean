import TreeQuery.Text.Blank
import TreeQuery.Text.Upper
import TreeQuery.Text.Separated

/-!
# Filter operators

The operators in their four families, their spelling in SQL, and how many parts each takes. Logical
operators count nested filters, the others count operands.
-/

namespace TreeQuery

/-- How many parts an operator takes. -/
inductive Arity
  | exactly (n : Nat)
  | atLeast (n : Nat)
  deriving DecidableEq

def Arity.admits : Arity → Nat → Bool
  | .exactly n, count => count == n
  | .atLeast n, count => n ≤ count

def Arity.text : Arity → String
  | .exactly n => s!"exactly {n}"
  | .atLeast n => s!"at least {n}"

inductive LogicalOp
  | and | or | not
  deriving DecidableEq

inductive ComparisonOp
  | equal | less | greater | atMost | atLeast | unequal | like | notLike | is | isNot
  deriving DecidableEq

inductive RangeOp
  | between | notBetween
  deriving DecidableEq

inductive MembershipOp
  | among | notAmong
  deriving DecidableEq

inductive Operator
  | logical (op : LogicalOp)
  | comparison (op : ComparisonOp)
  | range (op : RangeOp)
  | membership (op : MembershipOp)
  deriving DecidableEq

def LogicalOp.sql : LogicalOp → String
  | .and => "AND"
  | .or => "OR"
  | .not => "NOT"

def ComparisonOp.sql : ComparisonOp → String
  | .equal => "="
  | .less => "<"
  | .greater => ">"
  | .atMost => "<="
  | .atLeast => ">="
  | .unequal => "!="
  | .like => "LIKE"
  | .notLike => "NOT LIKE"
  | .is => "IS"
  | .isNot => "IS NOT"

def RangeOp.sql : RangeOp → String
  | .between => "BETWEEN"
  | .notBetween => "NOT BETWEEN"

def MembershipOp.sql : MembershipOp → String
  | .among => "IN"
  | .notAmong => "NOT IN"

namespace Operator

def sql : Operator → String
  | .logical op => op.sql
  | .comparison op => op.sql
  | .range op => op.sql
  | .membership op => op.sql

/-- A membership takes the tested operand and at least one candidate. -/
def arity : Operator → Arity
  | .logical .not => .exactly 1
  | .logical _ => .atLeast 2
  | .comparison _ => .exactly 2
  | .range _ => .exactly 3
  | .membership _ => .atLeast 2

def isLogical : Operator → Bool
  | .logical _ => true
  | _ => false

def all : List Operator :=
  [.logical .and, .logical .or, .logical .not,
    .comparison .equal, .comparison .less, .comparison .greater, .comparison .atMost,
    .comparison .atLeast, .comparison .unequal, .comparison .like, .comparison .notLike,
    .comparison .is, .comparison .isNot,
    .range .between, .range .notBetween,
    .membership .among, .membership .notAmong]

/-- The form in which operator tokens are compared: in upper case, with one blank between words. -/
def normalize (token : String) : String :=
  Text.upper (Text.separated " " (Text.words token))

/-- The operator that a token spells, in any case and with any blanks between its words. It does not
unfold by itself: there is no use in going through the operators for a token that is not known. -/
@[irreducible]
def parse? (token : String) : Option Operator :=
  all.find? fun op => op.sql = normalize token

end Operator

end TreeQuery
