import TreeQuery.Filter.Operand
import TreeQuery.Filter.Operator

/-!
# Filters

Boolean filter trees. Comparisons and ranges have their operands by place; the lists of logical and
membership nodes may have any length, and whether an operator admits it is a separate question.
-/

namespace TreeQuery

inductive Filter
  | logical (op : LogicalOp) (children : List Filter)
  | comparison (op : ComparisonOp) (left right : Operand)
  | range (op : RangeOp) (subject low high : Operand)
  | membership (op : MembershipOp) (subject : Operand) (candidates : List Operand)

namespace Filter

def operator : Filter → Operator
  | .logical op _ => .logical op
  | .comparison op _ _ => .comparison op
  | .range op _ _ _ => .range op
  | .membership op _ _ => .membership op

/-- The nested filters of a logical node. -/
def children : Filter → List Filter
  | .logical _ children => children
  | _ => []

/-- The operands of a node itself, from left to right. -/
def operands : Filter → List Operand
  | .logical _ _ => []
  | .comparison _ left right => [left, right]
  | .range _ subject low high => [subject, low, high]
  | .membership _ subject candidates => subject :: candidates

/-- How many parts a node has, of the kind that its operator counts. -/
def count : Filter → Nat
  | .logical _ children => children.length
  | node => node.operands.length

mutual
/-- Whether two filters are the same tree, with floating-point numbers compared by their bits. -/
def same : Filter → Filter → Bool
  | .logical op fs, .logical op' gs => op = op' && sameAll fs gs
  | .comparison op l r, .comparison op' l' r' => op = op' && l = l' && r = r'
  | .range op s l h, .range op' s' l' h' => op = op' && s = s' && l = l' && h = h'
  | .membership op s cs, .membership op' s' cs' => op = op' && s = s' && cs = cs'
  | _, _ => false

def sameAll : List Filter → List Filter → Bool
  | [], [] => true
  | f :: fs, g :: gs => same f g && sameAll fs gs
  | _, _ => false
end

mutual
theorem same_iff : ∀ f g : Filter, same f g = true ↔ f = g
  | .logical op fs, .logical op' gs => by simp [same, sameAll_iff fs gs]
  | .comparison .., .comparison .. => by simp [same, and_assoc]
  | .range .., .range .. => by simp [same, and_assoc]
  | .membership .., .membership .. => by simp [same, and_assoc]
  | .logical .., .comparison .. => by simp [same]
  | .logical .., .range .. => by simp [same]
  | .logical .., .membership .. => by simp [same]
  | .comparison .., .logical .. => by simp [same]
  | .comparison .., .range .. => by simp [same]
  | .comparison .., .membership .. => by simp [same]
  | .range .., .logical .. => by simp [same]
  | .range .., .comparison .. => by simp [same]
  | .range .., .membership .. => by simp [same]
  | .membership .., .logical .. => by simp [same]
  | .membership .., .comparison .. => by simp [same]
  | .membership .., .range .. => by simp [same]

theorem sameAll_iff : ∀ fs gs : List Filter, sameAll fs gs = true ↔ fs = gs
  | [], [] => by simp [sameAll]
  | f :: fs, g :: gs => by simp [sameAll, same_iff f g, sameAll_iff fs gs]
  | [], _ :: _ => by simp [sameAll]
  | _ :: _, [] => by simp [sameAll]
end

instance : DecidableEq Filter := fun f g => decidable_of_iff _ (same_iff f g)

/-- A node is larger than its children together, which lets a walk replace a node by them. -/
theorem sizeOf_children_lt (node : Filter) : sizeOf node.children < sizeOf node := by
  cases node with
  | logical op fs => simp only [children, logical.sizeOf_spec]; omega
  | comparison op l r => cases op <;> simp [children] <;> omega
  | range op s l h => cases op <;> simp [children] <;> omega
  | membership op s cs => cases op <;> simp [children] <;> omega

theorem sizeOf_append (fs gs : List Filter) :
    sizeOf (fs ++ gs) + 1 = sizeOf fs + sizeOf gs := by
  induction fs with
  | nil => simp only [List.nil_append, List.nil.sizeOf_spec]; omega
  | cons f fs ih => simp only [List.cons_append, List.cons.sizeOf_spec]; omega

end Filter

end TreeQuery
