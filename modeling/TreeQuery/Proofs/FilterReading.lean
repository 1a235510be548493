import TreeQuery.Filter.Violation

/-!
# Filters read from left to right

What the walks over a filter find, said about the list of its nodes: a node comes before its
children, and these come in order.

* `Filter.nodes`: a filter with all that is nested in it;
* `Filter.allOperands`, `Filter.faults`, `Filter.violations`: all that a reading meets;
* `violation?_eq_head?`: the walk stops at the first violation of a reading;
* `mentions_eq`: the entities are those of the operands, in the order of their first mention.
-/

namespace TreeQuery

/-- The value of a literal operand. -/
def Operand.literal? : Operand → Option Literal
  | .column _ _ => none
  | .literal value => some value

theorem Operand.violation?_eq_none {schema : Schema} {entity name : String} :
    (column entity name).violation? schema = none ↔
      ∃ declared, schema.entity? entity = some declared ∧ name ∈ declared.attributes := by
  cases he : schema.entity? entity with
  | none => simp [violation?, he]
  | some declared => simp [violation?, he]

namespace Filter

mutual
/-- A filter and the filters nested in it, each before its children. -/
def nodes : Filter → List Filter
  | .logical op fs => .logical op fs :: nodesOf fs
  | leaf => [leaf]

def nodesOf : List Filter → List Filter
  | [] => []
  | f :: fs => nodes f ++ nodesOf fs
end

/-- The operands of all nodes. -/
def allOperands (f : Filter) : List Operand := f.nodes.flatMap operands

/-- The literals of a filter from left to right. -/
def literals (f : Filter) : List Literal := f.allOperands.filterMap (·.literal?)

/-- The faults of all nodes. -/
def faults (f : Filter) : List FilterFault := f.nodes.filterMap fault?

/-- All that is wrong with a node itself: its shape, then its operands. -/
def ownViolations (schema : Schema) (node : Filter) : List QueryViolation :=
  (node.fault?.map .malformedFilter).toList ++ node.operands.filterMap (·.violation? schema)

/-- All that is wrong with a filter, a node's own before what is wrong with its children. -/
def violations (schema : Schema) (f : Filter) : List QueryViolation :=
  f.nodes.flatMap (ownViolations schema)

variable {schema : Schema} {f : Filter}

/-- What holds of a filter whenever it holds of its children holds of every filter. -/
theorem childInduction {motive : Filter → Prop}
    (step : ∀ f : Filter, (∀ child ∈ f.children, motive child) → motive f) (f : Filter) :
    motive f :=
  step f fun child _ => childInduction step child
  termination_by sizeOf f
  decreasing_by
    have := List.sizeOf_lt_of_mem ‹child ∈ f.children›
    have := sizeOf_children_lt f
    omega

theorem nodes_eq (f : Filter) : f.nodes = f :: nodesOf f.children := by
  cases f <;> simp [nodes, nodesOf, children]

theorem nodesOf_append (fs gs : List Filter) : nodesOf (fs ++ gs) = nodesOf fs ++ nodesOf gs := by
  induction fs with
  | nil => rfl
  | cons f fs ih => rw [List.cons_append, nodesOf, nodesOf, ih, List.append_assoc]

/-- A stack with a node on top is read like one with the children of the node in its place. -/
theorem nodesOf_cons (node : Filter) (stack : List Filter) :
    nodesOf (node :: stack) = node :: nodesOf (node.children ++ stack) := by
  rw [nodesOf, nodes_eq, nodesOf_append, List.cons_append]

theorem fault?_eq_none (h : f.faults = []) : f.fault? = none := by
  refine List.filterMap_eq_nil_iff.mp h f ?_
  rw [nodes_eq]
  exact List.mem_cons_self

theorem allOperands_of_leaf (h : f.nodes = [f]) : f.allOperands = f.operands := by
  rw [allOperands, h, List.flatMap_singleton]

theorem literals_of_leaf (h : f.nodes = [f]) : f.literals = f.operands.filterMap (·.literal?) := by
  rw [literals, allOperands_of_leaf h]

theorem allOperands_logical (op : LogicalOp) (fs : List Filter) :
    (logical op fs).allOperands = (fs.map allOperands).flatten := by
  have each : (nodesOf fs).flatMap operands = (fs.map allOperands).flatten := by
    induction fs with
    | nil => rfl
    | cons f fs ih =>
      rw [nodesOf, List.flatMap_append, ih, List.map_cons, List.flatten_cons, allOperands]
  exact each

/-! ## The walks -/

theorem ownViolation?_eq_head? (schema : Schema) (node : Filter) :
    node.ownViolation? schema = (node.ownViolations schema).head? := by
  unfold ownViolation? ownViolations
  cases node.fault? with
  | some fault => rfl
  | none => simp [List.head?_filterMap]

theorem firstViolation?_eq_head? (schema : Schema) (stack : List Filter) :
    firstViolation? schema stack = ((nodesOf stack).flatMap (ownViolations schema)).head? := by
  fun_induction firstViolation? schema stack with
  | case1 => rfl
  | case2 node stack violation h =>
    rw [ownViolation?_eq_head?] at h
    rw [nodesOf_cons, List.flatMap_cons, List.head?_append, h, Option.some_or]
  | case3 node stack h ih =>
    rw [ownViolation?_eq_head?, List.head?_eq_none_iff] at h
    rw [ih, nodesOf_cons, List.flatMap_cons, h, List.nil_append]

theorem violation?_eq_head? (schema : Schema) (f : Filter) :
    f.violation? schema = (f.violations schema).head? := by
  rw [violation?, firstViolation?_eq_head?, nodesOf, nodesOf, List.append_nil, violations]

theorem collectMentions_eq (seen : OrderedSet String) (stack : List Filter) :
    collectMentions seen stack =
      seen.insertMany (((nodesOf stack).flatMap operands).filterMap (·.entity?)) := by
  fun_induction collectMentions seen stack with
  | case1 seen => rfl
  | case2 seen node stack ih =>
    rw [ih, nodesOf_cons, List.flatMap_cons, List.filterMap_append]
    exact List.foldl_append.symm

theorem mentions_eq (f : Filter) :
    f.mentions = (OrderedSet.ofList (f.allOperands.filterMap (·.entity?))).toList := by
  rw [mentions, collectMentions_eq, nodesOf, nodesOf, List.append_nil]
  rfl

theorem mem_mentions {entity : String} :
    entity ∈ f.mentions ↔ ∃ name, .column entity name ∈ f.allOperands := by
  rw [mentions_eq, OrderedSet.mem_toList, OrderedSet.mem_ofList, List.mem_filterMap]
  constructor
  · rintro ⟨operand, hmem, h⟩
    cases operand with
    | column e name => exact ⟨name, Option.some.inj h ▸ hmem⟩
    | literal value => cases h
  · rintro ⟨name, hmem⟩
    exact ⟨.column entity name, hmem, rfl⟩

/-! ## Shapes -/

variable {children : List Filter}

theorem admits_of_fault?_eq_none (h : f.fault? = none) :
    f.operator.arity.admits f.count = true := by
  unfold fault? Operator.arityFault? at h
  split at h
  · next hadmits => exact hadmits
  · cases h

theorem exists_pair {op : LogicalOp} (hop : op ≠ .not) (h : (logical op children).fault? = none) :
    ∃ child next rest, children = child :: next :: rest := by
  have hcount : 2 ≤ children.length := by
    cases op with
    | and | or => exact of_decide_eq_true (admits_of_fault?_eq_none h)
    | not => exact absurd rfl hop
  match children with
  | child :: next :: rest => exact ⟨child, next, rest, rfl⟩

theorem exists_single (h : (logical .not children).fault? = none) :
    ∃ child, children = [child] := by
  have hcount : children.length = 1 := beq_iff_eq.mp (admits_of_fault?_eq_none h)
  exact List.length_eq_one_iff.mp hcount

theorem exists_candidate {op : MembershipOp} {subject : Operand} {candidates : List Operand}
    (h : (membership op subject candidates).fault? = none) :
    ∃ candidate rest, candidates = candidate :: rest := by
  have hcount : 2 ≤ (subject :: candidates).length :=
    of_decide_eq_true (admits_of_fault?_eq_none h)
  match candidates with
  | candidate :: rest => exact ⟨candidate, rest, rfl⟩

/-! ## Filters without violations -/

theorem mem_violations {violation : QueryViolation} :
    violation ∈ f.violations schema ↔
      ∃ node ∈ f.nodes, node.fault?.map .malformedFilter = some violation ∨
        ∃ operand ∈ node.operands, operand.violation? schema = some violation := by
  simp only [violations, ownViolations, List.mem_flatMap, List.mem_append, Option.mem_toList,
    List.mem_filterMap]

theorem faults_eq_nil (h : f.violations schema = []) : f.faults = [] := by
  refine List.eq_nil_iff_forall_not_mem.mpr fun fault hfault => ?_
  obtain ⟨node, hnode, hfault⟩ := List.mem_filterMap.mp hfault
  have hv : .malformedFilter fault ∈ f.violations schema :=
    mem_violations.mpr ⟨node, hnode, .inl (by rw [hfault]; rfl)⟩
  exact List.not_mem_nil (h ▸ hv)

/-- What a filter without violations mentions is an entity of the schema. -/
theorem mem_keys_of_mentions (h : f.violations schema = []) :
    ∀ entity ∈ f.mentions, entity ∈ schema.names := by
  intro entity hm
  obtain ⟨name, hmem⟩ := mem_mentions.mp hm
  obtain ⟨node, hnode, hoperand⟩ := List.mem_flatMap.mp hmem
  cases he : schema.entity? entity with
  | some declared => exact OrderedMap.mem_keys_iff.mpr ⟨declared, he⟩
  | none =>
    have unknown : (Operand.column entity name).violation? schema =
        some (.unknownEntity entity) := by
      simp [Operand.violation?, he]
    have hv : .unknownEntity entity ∈ f.violations schema :=
      mem_violations.mpr ⟨node, hnode, .inr ⟨_, hoperand, unknown⟩⟩
    exact absurd (h ▸ hv) List.not_mem_nil

end Filter

end TreeQuery
