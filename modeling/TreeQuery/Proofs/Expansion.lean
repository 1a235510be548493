import TreeQuery.Proofs.Compilation
import TreeQuery.Proofs.Outcome

/-!
# What a filter compiles to

A filter is its operands in a frame of fixed words. Numbers are handed out from left to right, so
that a child starts where the literals of its earlier siblings end.

* `Operand.texts`, `Filter.leafText`, `Filter.logicalText`: the frame of each kind of node;
* `Filter.expand`: the expression of a filter by recursion;
* `compile_eq_expand`: the compilation with its stack of open nodes gives that expression.
-/

namespace TreeQuery

/-- The texts of operands from left to right, the literals numbered from `first`. -/
def Operand.texts (first : UInt64) : List Operand → List String
  | [] => []
  | .column entity name :: rest => Sql.Column.sql ⟨entity, name⟩ :: texts first rest
  | .literal _ :: rest => (":" ++ toString first.toNat) :: texts (first + 1) rest

namespace Filter

/-- The text of a node without children around the texts of its operands. -/
def leafText : Filter → List String → String
  | .comparison op _ _, [left, right] => left ++ " " ++ op.sql ++ " " ++ right
  | .range op _ _ _, [subject, low, high] =>
    subject ++ " " ++ op.sql ++ " " ++ low ++ " AND " ++ high
  | .membership op _ _, subject :: candidates =>
    subject ++ " " ++ op.sql ++ " (" ++ ", ".intercalate candidates ++ ")"
  | _, _ => ""

/-- The text of a logical node around the texts of its children. -/
def logicalText : LogicalOp → List String → String
  | .and, parts => " AND ".intercalate parts
  | .or, parts => " OR ".intercalate parts
  | .not, parts => "NOT " ++ " ".intercalate parts

/-- The expression of a node without children, unless its shape is wrong. -/
def expandLeaf (first : UInt64) (leaf : Filter) : Except FilterFault Compiled :=
  match leaf.fault? with
  | some fault => .error fault
  | none => .ok ⟨leaf.leafText (Operand.texts first leaf.operands),
      leaf.operands.filterMap Operand.literal?⟩

mutual
/-- The expression of a filter. The shape of a node is judged before its children, and each child is
numbered from where the one before it ends. -/
def expand (first : UInt64) : Filter → Except FilterFault Compiled
  | .logical op children =>
    match (Operator.logical op).arityFault? children.length with
    | some fault => .error fault
    | none => do
      let parts ← expandAll first children
      return ⟨logicalText op (parts.map fun part => "(" ++ part.sql ++ ")"),
        parts.flatMap Compiled.binds⟩
  | leaf => leaf.expandLeaf first

def expandAll (first : UInt64) : List Filter → Except FilterFault (List Compiled)
  | [] => .ok []
  | child :: rest => do
    let part ← expand first child
    let parts ← expandAll (first + UInt64.ofNat child.literals.length) rest
    return part :: parts
end

/-! ## Texts -/

theorem texts_cons (operand : Operand) (rest : List Operand) (numbering : Numbering) :
    Operand.texts numbering.next (operand :: rest) =
      (operand.sql numbering).1 :: Operand.texts (operand.sql numbering).2.next rest := by
  cases operand <;> rfl

theorem mapM_sql_fst (operands : List Operand) (numbering : Numbering) :
    (operands.mapM Operand.sql numbering).1 = Operand.texts numbering.next operands := by
  induction operands generalizing numbering with
  | nil => rfl
  | cons operand operands ih =>
    simp only [List.mapM_cons, stateM_bind, stateM_pure, ih, texts_cons]

theorem leafSql_fst (f : Filter) (numbering : Numbering) :
    (f.leafSql numbering).1 = f.leafText (Operand.texts numbering.next f.operands) := by
  cases f with
  | logical op children => rfl
  | comparison op left right =>
    simp only [leafSql, operands, leafText, stateM_bind, stateM_pure, texts_cons, Operand.texts]
  | range op subject low high =>
    simp only [leafSql, operands, leafText, stateM_bind, stateM_pure, texts_cons, Operand.texts]
  | membership op subject candidates =>
    simp only [leafSql, operands, leafText, stateM_bind, stateM_pure, texts_cons, mapM_sql_fst,
      Text.separated_eq_intercalate]

theorem logicalSql_eq (op : LogicalOp) (parts : List String) :
    logicalSql op parts = logicalText op parts := by
  cases op <;> simp only [logicalSql, logicalText, Text.separated_eq_intercalate] <;> rfl

/-! ## Expressions -/

theorem faults_eq (f : Filter) :
    f.faults.head? = f.fault?.or ((nodesOf f.children).filterMap fault?).head? := by
  rw [faults, nodes_eq, List.filterMap_cons]
  cases f.fault? <;> rfl

theorem expandLeaf_eq {f : Filter} (hn : f.nodes = [f]) (ht : f.text = f.leafSql)
    (numbering : Numbering) :
    f.expandLeaf numbering.next = match f.faults.head? with
      | some fault => .error fault
      | none => .ok ⟨(f.text numbering).1, f.literals⟩ := by
  have hfaults : f.faults.head? = f.fault? := by
    rw [faults, hn]
    cases h : f.fault? <;> simp [h]
  rw [expandLeaf, hfaults, ht, leafSql_fst, literals_of_leaf hn]

mutual
/-- An expansion meets the faults in the order of a reading, and gives the text by recursion. -/
theorem expand_eq : ∀ (f : Filter) (numbering : Numbering),
    f.expand numbering.next = match f.faults.head? with
      | some fault => .error fault
      | none => .ok ⟨(f.text numbering).1, f.literals⟩
  | .logical op children, numbering => by
    have hchildren := expandAll_eq children numbering
    rw [expand, faults_eq]
    change (match (logical op children).fault? with | some fault => _ | none => _) = _
    cases (logical op children).fault? with
    | some fault => rfl
    | none =>
      dsimp only [Option.none_or, Filter.children]
      cases hfaults : ((nodesOf children).filterMap fault?).head? with
      | some fault =>
        rw [hfaults] at hchildren
        simp only [hchildren, error_bind]
      | none =>
        rw [hfaults] at hchildren
        obtain ⟨parts, hparts, htexts, hbinds⟩ := hchildren
        have htext : ((logical op children).text numbering).1 =
            logicalSql op (texts children numbering).1 := rfl
        simp only [hparts, ok_bind, htexts, hbinds, htext, logicalSql_eq]
        rfl
  | .comparison op left right, numbering =>
    expandLeaf_eq (f := .comparison op left right) rfl rfl numbering
  | .range op subject low high, numbering =>
    expandLeaf_eq (f := .range op subject low high) rfl rfl numbering
  | .membership op subject candidates, numbering =>
    expandLeaf_eq (f := .membership op subject candidates) rfl rfl numbering

theorem expandAll_eq : ∀ (fs : List Filter) (numbering : Numbering),
    match ((nodesOf fs).filterMap fault?).head? with
      | some fault => expandAll numbering.next fs = .error fault
      | none => ∃ parts, expandAll numbering.next fs = .ok parts ∧
          parts.map (fun part => "(" ++ part.sql ++ ")") = (texts fs numbering).1 ∧
          parts.flatMap Compiled.binds = ((nodesOf fs).flatMap operands).filterMap (·.literal?)
  | [], numbering => ⟨[], rfl, rfl, rfl⟩
  | f :: fs, numbering => by
    have hf := expand_eq f numbering
    have hfs := expandAll_eq fs (numbering.advance f.literals)
    have split : ((nodesOf (f :: fs)).filterMap fault?).head? =
        f.faults.head?.or ((nodesOf fs).filterMap fault?).head? := by
      rw [nodesOf, List.filterMap_append, List.head?_append]
      rfl
    rw [split, expandAll, hf]
    cases f.faults.head? with
    | some fault => rfl
    | none =>
      dsimp only [Option.none_or, ok_bind]
      cases hfaults : ((nodesOf fs).filterMap fault?).head? with
      | some fault =>
        rw [hfaults] at hfs
        have hfs : expandAll (numbering.next + UInt64.ofNat f.literals.length) fs = .error fault :=
          hfs
        rw [hfs]
        rfl
      | none =>
        rw [hfaults] at hfs
        obtain ⟨parts, hparts, htexts, hbinds⟩ := hfs
        have hparts : expandAll (numbering.next + UInt64.ofNat f.literals.length) fs = .ok parts :=
          hparts
        rw [hparts]
        refine ⟨_, rfl, ?_, ?_⟩
        · simp only [List.map_cons, htexts, texts, stateM_bind, stateM_pure, text_advances]
        · simp only [List.flatMap_cons, hbinds, nodesOf, List.flatMap_append,
            List.filterMap_append, literals, allOperands]
end

/-- The compilation with its stack of open nodes gives the expression by recursion. -/
theorem compile_eq_expand (f : Filter) (first : UInt64) : f.compile first = f.expand first := by
  have hexpand := expand_eq f ⟨first, []⟩
  rw [compile_eq, hexpand, text_advances]
  rfl

end Filter

end TreeQuery
