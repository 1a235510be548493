import Mathlib.Data.List.Basic
import TreeQuery.Filter.Written
import TreeQuery.Proofs.Compilation
import TreeQuery.Proofs.OperatorSpelling
import TreeQuery.Proofs.Outcome

/-!
# Filters written and read

What becomes of a filter on its way through the written form, and of a written form on its way
through the filter.

* `WrittenFilter.nodes`, `WrittenFilter.faults`: a written filter read from left to right;
* `WrittenFilter.Admitted`: what is asked of a node, whatever its children are;
* `WrittenFilter.canonical`: the same filter with its operators in their SQL spelling;
* `read_cases`: a reading fails with the first fault, or gives the filter whose written form is the
  canonical one;
* `shape_checkers_agree`: reading back, compiling and checking find the same fault;
* `reading_follows_grammar`: a reading succeeds when every node is admitted.
-/

namespace TreeQuery

/-- Two entities without references. -/
def Schema.authors : Schema where
  entities := .ofList
    [("User", ⟨.ofList ["name"], ["id"], .empty, "user"⟩),
     ("Post", ⟨.ofList ["title"], ["id"], .empty, "post"⟩)]

/-! ## Written filters from left to right -/

namespace WrittenFilter

mutual
/-- A written filter and those nested in it, each before its children. -/
def nodes : WrittenFilter → List WrittenFilter
  | .node token (some filters) operands => .node token (some filters) operands :: nodesOf filters
  | leaf => [leaf]

def nodesOf : List WrittenFilter → List WrittenFilter
  | [] => []
  | w :: ws => nodes w ++ nodesOf ws
end

/-- What is asked of a node: a token that spells an operator, no parts of the kind that the operator
does not take, and as many of the other kind as it admits. Parts that are left out are none. -/
def Admitted : WrittenFilter → Prop
  | .node token filters operands =>
    ∃ operator, Operator.parse? token = some operator ∧
      if operator.isLogical then
        operands = none ∧ operator.arity.admits (filters.getD []).length = true
      else filters = none ∧ operator.arity.admits (operands.getD []).length = true

/-- What is wrong with a node itself: its token first, then the kind of its parts, then their
number. -/
def fault? : WrittenFilter → Option FilterFault
  | .node token filters operands =>
    match Operator.parse? token with
    | none => some (.unknownOperator token)
    | some operator =>
      if operator.isLogical then
        if operands.isSome then some (.operandsOnLogical token)
        else operator.arityFault? (filters.getD []).length
      else if filters.isSome then some (.filtersOnLeaf token)
      else operator.arityFault? (operands.getD []).length

/-- The faults of all nodes. -/
def faults (w : WrittenFilter) : List FilterFault := w.nodes.filterMap fault?

mutual
/-- The same filter with every token that spells an operator in the SQL spelling. -/
def canonical : WrittenFilter → WrittenFilter
  | .node token none operands =>
    .node ((Operator.parse? token).elim token Operator.sql) none operands
  | .node token (some filters) operands =>
    .node ((Operator.parse? token).elim token Operator.sql) (some (canonicalAll filters)) operands

def canonicalAll : List WrittenFilter → List WrittenFilter
  | [] => []
  | w :: ws => canonical w :: canonicalAll ws
end

end WrittenFilter

theorem Operator.arityFault?_eq_none {operator : Operator} {count : Nat} :
    operator.arityFault? count = none ↔ operator.arity.admits count = true := by
  simp [arityFault?]

namespace WrittenFilter

theorem fault?_eq_none {w : WrittenFilter} : w.fault? = none ↔ w.Admitted := by
  obtain ⟨token, filters, operands⟩ := w
  cases h : Operator.parse? token with
  | none => simp [fault?, Admitted, h]
  | some operator =>
    cases hl : operator.isLogical with
    | true => cases operands <;> simp [fault?, Admitted, h, hl, Operator.arityFault?_eq_none]
    | false => cases filters <;> simp [fault?, Admitted, h, hl, Operator.arityFault?_eq_none]

theorem fault?_logical {token : String} {op : LogicalOp} {fs : List WrittenFilter}
    (h : Operator.parse? token = some (.logical op)) :
    (node token (some fs) none).fault? = (Operator.logical op).arityFault? fs.length := by
  rw [fault?, h]
  rfl

theorem fault?_leaf {token : String} {operator : Operator} {operands : List Operand}
    (h : Operator.parse? token = some operator) (hleaf : operator.isLogical = false) :
    (node token none (some operands)).fault? = operator.arityFault? operands.length := by
  simp [fault?, h, hleaf]

theorem faults_eq_nil {w : WrittenFilter} : w.faults = [] ↔ ∀ node ∈ w.nodes, node.Admitted := by
  rw [faults, List.filterMap_eq_nil_iff]
  exact forall₂_congr fun node _ => fault?_eq_none

theorem reason_of_arityFault? {operator : Operator} {count : Nat} {fault : FilterFault}
    (h : operator.arityFault? count = some fault) : fault.reason ≠ "missing variable" := by
  unfold Operator.arityFault? at h
  split at h
  · cases h
  · cases h
    intro same
    have letter := congrArg (·.toList.head?) same
    simp [FilterFault.reason] at letter

/-- No operand is missing where the number of operands is the first thing to be looked at. -/
theorem reason_of_fault? {w : WrittenFilter} {fault : FilterFault} (h : w.fault? = some fault) :
    fault.reason ≠ "missing variable" := by
  obtain ⟨token, filters, operands⟩ := w
  rw [fault?] at h
  split at h
  · cases h
    simp [FilterFault.reason]
  · split at h <;> split at h
    · cases h
      simp [FilterFault.reason]
    · exact reason_of_arityFault? h
    · cases h
      simp [FilterFault.reason]
    · exact reason_of_arityFault? h

theorem nodes_eq (token : String) (filters : Option (List WrittenFilter))
    (operands : Option (List Operand)) :
    (node token filters operands).nodes =
      .node token filters operands :: nodesOf (filters.getD []) := by
  cases filters <;> rfl

theorem head?_faults {w : WrittenFilter} {fault : FilterFault} (h : w.fault? = some fault) :
    w.faults.head? = some fault := by
  obtain ⟨token, filters, operands⟩ := w
  rw [faults, nodes_eq, List.filterMap_cons_some h, List.head?_cons]

/-- No operator does without parts, so an admitted node has a list of the kind that its operator
takes. -/
theorem Admitted.cases {w : WrittenFilter} (h : w.Admitted) :
    (∃ token op fs, w = .node token (some fs) none ∧
      Operator.parse? token = some (.logical op) ∧
      (Operator.logical op).arity.admits fs.length = true) ∨
    (∃ token operator operands, w = .node token none (some operands) ∧
      Operator.parse? token = some operator ∧ operator.isLogical = false ∧
      operator.arity.admits operands.length = true) := by
  obtain ⟨token, filters, operands⟩ := w
  obtain ⟨operator, hparse, hparts⟩ := h
  have hzero : operator.arity.admits 0 = false := by
    cases operator with
    | logical op => cases op <;> rfl
    | comparison | range | membership => rfl
  cases operator with
  | logical op =>
    obtain ⟨rfl, hcount⟩ := hparts
    cases filters with
    | none => exact absurd (hzero.symm.trans hcount) Bool.false_ne_true
    | some fs => exact .inl ⟨token, op, fs, rfl, hparse, hcount⟩
  | comparison | range | membership =>
    obtain ⟨rfl, hcount⟩ := hparts
    cases operands with
    | none => exact absurd (hzero.symm.trans hcount) Bool.false_ne_true
    | some operands => exact .inr ⟨token, _, operands, rfl, hparse, rfl, hcount⟩

end WrittenFilter

/-! ## Reading -/

namespace Filter

open WrittenFilter (canonicalAll)

variable {f : Filter}

theorem nodes_leaf (h : f.operator.isLogical = false) : f.nodes = [f] := by
  cases f with
  | logical => cases h
  | comparison | range | membership => rfl

theorem count_leaf (h : f.operator.isLogical = false) : f.count = f.operands.length := by
  cases f with
  | logical => cases h
  | comparison | range | membership => rfl

theorem toWritten_leaf (h : f.operator.isLogical = false) :
    f.toWritten = .node f.operator.sql none (some f.operands) := by
  cases f with
  | logical => cases h
  | comparison | range | membership => rfl

/-- As many operands as an operator admits make a node. -/
theorem exists_ofOperands (token : String) {operator : Operator} {operands : List Operand}
    (hleaf : operator.isLogical = false) (h : operator.arity.admits operands.length = true) :
    ∃ f, ofOperands token operands operator = .ok f ∧ f.operator = operator ∧
      f.operands = operands := by
  cases operator with
  | logical => cases hleaf
  | comparison op =>
    obtain ⟨left, right, rfl⟩ := List.length_eq_two.mp (beq_iff_eq.mp h)
    exact ⟨.comparison op left right, rfl, rfl, rfl⟩
  | range op =>
    obtain ⟨subject, low, high, rfl⟩ := List.length_eq_three.mp (beq_iff_eq.mp h)
    exact ⟨.range op subject low high, rfl, rfl, rfl⟩
  | membership op =>
    cases operands with
    | nil => cases h
    | cons subject candidates => exact ⟨.membership op subject candidates, rfl, rfl, rfl⟩

theorem ofWritten_of_fault {w : WrittenFilter} {fault : FilterFault} (h : w.fault? = some fault) :
    ofWritten w = .error fault := by
  obtain ⟨token, filters, operands⟩ := w
  rw [ofWritten]
  rw [WrittenFilter.fault?] at h
  generalize Operator.parse? token = parsed at h ⊢
  cases parsed with
  | none =>
    cases h
    rfl
  | some operator =>
    cases operator with
    | logical op =>
      cases operands with
      | some => cases h; rfl
      | none =>
        change (Operator.logical op).arityFault? _ = _ at h
        dsimp only
        rw [h]
    | comparison | range | membership =>
      cases filters with
      | some => cases h; rfl
      | none =>
        change Operator.arityFault? _ _ = _ at h
        dsimp only
        rw [h]

theorem ofWritten_logical {token : String} {op : LogicalOp} (fs : List WrittenFilter)
    (hparse : Operator.parse? token = some (.logical op))
    (hcount : (Operator.logical op).arity.admits fs.length = true) :
    ofWritten (.node token (some fs) none) = (ofAllWritten fs).map (.logical op) := by
  have hfault : (Operator.logical op).arityFault? ((some fs).getD []).length = none :=
    Operator.arityFault?_eq_none.mpr hcount
  rw [ofWritten, hparse]
  dsimp only
  rw [hfault]

theorem ofWritten_leaf {token : String} {operator : Operator} {operands : List Operand}
    (hparse : Operator.parse? token = some operator) (hleaf : operator.isLogical = false)
    (hcount : operator.arity.admits operands.length = true) :
    ofWritten (.node token none (some operands)) = ofOperands token operands operator := by
  have hfault : operator.arityFault? ((some operands).getD []).length = none :=
    Operator.arityFault?_eq_none.mpr hcount
  rw [ofWritten, hparse]
  cases operator with
  | logical => cases hleaf
  | comparison | range | membership =>
    dsimp only
    rw [hfault]
    rfl

theorem toAllWritten_eq (fs : List Filter) : toAllWritten fs = fs.map toWritten := by
  induction fs with
  | nil => rfl
  | cons f fs ih => rw [toAllWritten, ih, List.map_cons]

theorem length_canonicalAll (ws : List WrittenFilter) : (canonicalAll ws).length = ws.length := by
  induction ws with
  | nil => rfl
  | cons w ws ih => rw [canonicalAll, List.length_cons, List.length_cons, ih]

mutual
/-- A reading fails with the first fault, or gives a filter without faults that is written like the
one that was read, but for the spelling of its operators. -/
theorem read_cases : ∀ w : WrittenFilter,
    (∃ fault, w.faults.head? = some fault ∧ ofWritten w = .error fault) ∨
    (w.faults = [] ∧ ∃ f, ofWritten w = .ok f ∧ f.toWritten = w.canonical ∧ f.faults = [])
  | .node token none operands => by
    cases hown : (WrittenFilter.node token none operands).fault? with
    | some fault => exact .inl ⟨fault, WrittenFilter.head?_faults hown, ofWritten_of_fault hown⟩
    | none =>
      obtain ⟨_, _, _, heq, -⟩ | ⟨_, operator, operands, heq, hparse, hleaf, hcount⟩ :=
        (WrittenFilter.fault?_eq_none.mp hown).cases
      · cases heq
      · cases heq
        obtain ⟨f, hf, rfl, rfl⟩ := exists_ofOperands token hleaf hcount
        refine .inr ⟨?_, f, ?_, ?_, ?_⟩
        · rw [WrittenFilter.faults, WrittenFilter.nodes_eq, List.filterMap_cons_none hown]
          rfl
        · rw [ofWritten_leaf hparse hleaf hcount, hf]
        · rw [toWritten_leaf hleaf, WrittenFilter.canonical, hparse]
          rfl
        · have hfault : f.fault? = none := by
            rw [fault?, count_leaf hleaf]
            exact Operator.arityFault?_eq_none.mpr hcount
          rw [faults, nodes_leaf hleaf, List.filterMap_cons_none hfault, List.filterMap_nil]
  | .node token (some fs) operands => by
    have children := readAll_cases fs
    cases hown : (WrittenFilter.node token (some fs) operands).fault? with
    | some fault => exact .inl ⟨fault, WrittenFilter.head?_faults hown, ofWritten_of_fault hown⟩
    | none =>
      have split : (WrittenFilter.node token (some fs) operands).faults =
          (WrittenFilter.nodesOf fs).filterMap WrittenFilter.fault? := by
        rw [WrittenFilter.faults, WrittenFilter.nodes, List.filterMap_cons_none hown]
      obtain ⟨_, op, _, heq, hparse, hcount⟩ | ⟨_, _, _, heq, -⟩ :=
        (WrittenFilter.fault?_eq_none.mp hown).cases
      · cases heq
        rw [split, ofWritten_logical fs hparse hcount]
        rcases children with ⟨fault, hfirst, hread⟩ | ⟨hnone, gs, hread, hwritten, hfaults⟩
        · exact .inl ⟨fault, hfirst, by rw [hread]; rfl⟩
        · refine .inr ⟨hnone, .logical op gs, by rw [hread]; rfl, ?_, ?_⟩
          · rw [toWritten, hwritten, WrittenFilter.canonical, hparse]
            rfl
          · have hlength : gs.length = fs.length := by
              rw [← length_canonicalAll fs, ← hwritten, toAllWritten_eq, List.length_map]
            have hfault : (logical op gs).fault? = none := by
              rw [← hlength] at hcount
              exact Operator.arityFault?_eq_none.mpr hcount
            rw [faults, nodes, List.filterMap_cons_none hfault, hfaults]
      · cases heq

theorem readAll_cases : ∀ ws : List WrittenFilter,
    (∃ fault, ((WrittenFilter.nodesOf ws).filterMap WrittenFilter.fault?).head? = some fault ∧
      ofAllWritten ws = .error fault) ∨
    ((WrittenFilter.nodesOf ws).filterMap WrittenFilter.fault? = [] ∧
      ∃ fs, ofAllWritten ws = .ok fs ∧ toAllWritten fs = canonicalAll ws ∧
        (nodesOf fs).filterMap fault? = [])
  | [] => .inr ⟨rfl, [], rfl, rfl, rfl⟩
  | w :: ws => by
    have split : (WrittenFilter.nodesOf (w :: ws)).filterMap WrittenFilter.fault? =
        w.faults ++ (WrittenFilter.nodesOf ws).filterMap WrittenFilter.fault? := by
      rw [WrittenFilter.nodesOf, List.filterMap_append, WrittenFilter.faults]
    rw [split, ofAllWritten, List.head?_append]
    rcases read_cases w with ⟨fault, hfirst, hread⟩ | ⟨hnone, f, hread, hwritten, hfaults⟩
    · exact .inl ⟨fault, by rw [hfirst]; rfl, by rw [hread]; rfl⟩
    · rw [hnone, hread, List.head?_nil, Option.none_or, ok_bind, List.nil_append]
      rcases readAll_cases ws with ⟨fault, hfirst, hread⟩ | ⟨hnone, fs, hread, hall, hrest⟩
      · exact .inl ⟨fault, hfirst, by rw [hread]; rfl⟩
      · refine .inr ⟨hnone, f :: fs, by rw [hread]; rfl, ?_, ?_⟩
        · rw [toAllWritten, canonicalAll, hwritten, hall]
        · rw [nodesOf, List.filterMap_append, hrest, List.append_nil]
          exact hfaults
end

/-! ## Writing and reading back -/

theorem fault?_toWritten (f : Filter) : f.toWritten.fault? = f.fault? := by
  cases hop : f.operator.isLogical with
  | false =>
    rw [toWritten_leaf hop, WrittenFilter.fault?_leaf f.operator.parse?_sql hop, fault?,
      count_leaf hop]
  | true =>
    cases f with
    | logical op fs =>
      rw [toWritten, WrittenFilter.fault?_logical (Operator.parse?_logical op), toAllWritten_eq,
        List.length_map]
      rfl
    | comparison | range | membership => cases hop

theorem ofOperands_operands (token : String) (h : f.operator.isLogical = false) :
    ofOperands token f.operands f.operator = .ok f := by
  cases f with
  | logical => cases h
  | comparison | range | membership => rfl

theorem head?_faults {fault : FilterFault} (h : f.fault? = some fault) :
    f.faults.head? = some fault := by
  rw [faults, nodes_eq, List.filterMap_cons_some h, List.head?_cons]

theorem ofWritten_toWritten_of_fault {fault : FilterFault} (h : f.fault? = some fault) :
    ofWritten f.toWritten = f.faults.head?.elim (.ok f) .error := by
  rw [head?_faults h]
  exact ofWritten_of_fault ((fault?_toWritten f).trans h)

theorem ofWritten_toWritten_leaf (h : f.operator.isLogical = false) :
    ofWritten f.toWritten = f.faults.head?.elim (.ok f) .error := by
  cases hown : f.fault? with
  | some fault => exact ofWritten_toWritten_of_fault hown
  | none =>
    have hcount : f.operator.arity.admits f.operands.length = true := by
      rw [← count_leaf h]
      exact admits_of_fault?_eq_none hown
    rw [toWritten_leaf h, ofWritten_leaf f.operator.parse?_sql h hcount, ofOperands_operands _ h,
      faults, nodes_leaf h, List.filterMap_cons_none hown]
    rfl

mutual
/-- Reading back finds the first node of a wrong shape, or the filter itself. -/
theorem ofWritten_toWritten : ∀ f : Filter,
    ofWritten f.toWritten = f.faults.head?.elim (.ok f) .error
  | .logical op fs => by
    have children := ofAllWritten_toAllWritten fs
    cases hown : (logical op fs).fault? with
    | some fault => exact ofWritten_toWritten_of_fault hown
    | none =>
      have hcount : (Operator.logical op).arity.admits (toAllWritten fs).length = true := by
        rw [toAllWritten_eq, List.length_map]
        exact Operator.arityFault?_eq_none.mp hown
      rw [toWritten, ofWritten_logical _ (Operator.parse?_logical op) hcount, children, faults,
        nodes, List.filterMap_cons_none hown]
      cases ((nodesOf fs).filterMap fault?).head? <;> rfl
  | .comparison op left right => ofWritten_toWritten_leaf rfl
  | .range op subject low high => ofWritten_toWritten_leaf rfl
  | .membership op subject candidates => ofWritten_toWritten_leaf rfl

theorem ofAllWritten_toAllWritten : ∀ fs : List Filter,
    ofAllWritten (toAllWritten fs) =
      ((nodesOf fs).filterMap fault?).head?.elim (.ok fs) .error
  | [] => rfl
  | f :: fs => by
    rw [toAllWritten, ofAllWritten, ofWritten_toWritten f, ofAllWritten_toAllWritten fs, nodesOf,
      List.filterMap_append, List.head?_append, faults]
    cases (f.nodes.filterMap fault?).head? with
    | some fault => rfl
    | none => cases ((nodesOf fs).filterMap fault?).head? <;> rfl
end

/-! ## Agreement -/

/-- The columns that a filter names are attributes of entities of the schema. -/
def Resolves (schema : Schema) (f : Filter) : Prop :=
  ∀ entity name, .column entity name ∈ f.allOperands →
    ∃ declared, schema.entity? entity = some declared ∧ name ∈ declared.attributes

theorem faults_eq_nil_iff :
    f.faults = [] ↔ ∀ node ∈ f.nodes, node.operator.arity.admits node.count = true := by
  rw [faults, List.filterMap_eq_nil_iff]
  exact forall₂_congr fun node _ => Operator.arityFault?_eq_none

theorem resolves_iff {schema : Schema} :
    Resolves schema f ↔ ∀ operand ∈ f.allOperands, operand.violation? schema = none := by
  constructor
  · intro h operand hoperand
    cases operand with
    | literal value => rfl
    | column entity name => exact Operand.violation?_eq_none.mpr (h entity name hoperand)
  · intro h entity name hcolumn
    exact Operand.violation?_eq_none.mp (h _ hcolumn)

instance (schema : Schema) (f : Filter) : Decidable (Resolves schema f) :=
  decidable_of_iff _ resolves_iff.symm

/-- Where all columns are known, only shapes can be wrong. -/
theorem violations_of_resolves {schema : Schema} (h : Resolves schema f) :
    f.violations schema = f.faults.map .malformedFilter := by
  have own : ∀ node ∈ f.nodes,
      ownViolations schema node = (node.fault?.map .malformedFilter).toList := by
    intro node hnode
    have known : node.operands.filterMap (·.violation? schema) = [] := by
      refine List.filterMap_eq_nil_iff.mpr fun operand hoperand => ?_
      exact resolves_iff.mp h operand (List.mem_flatMap.mpr ⟨node, hnode, hoperand⟩)
    rw [ownViolations, known, List.append_nil]
  rw [violations, List.flatMap_congr own, ← List.filterMap_eq_flatMap_toList, faults,
    List.map_filterMap]

/-- **Reading back, compiling and checking find the same fault.** A filter all of whose nodes have a
number of parts that their operators admit is read back from its written form as it was, is
compiled, and passes the check of any schema that knows its columns. Of any other filter there is
one fault that is the outcome of all three. -/
theorem shape_checkers_agree (f : Filter) :
    ((∀ node ∈ f.nodes, node.operator.arity.admits node.count = true) →
      ofWritten f.toWritten = .ok f ∧
      (∀ first, ∃ compiled, f.compile first = .ok compiled) ∧
      ∀ schema, Resolves schema f → f.violation? schema = none) ∧
    ((∃ node ∈ f.nodes, node.operator.arity.admits node.count = false) →
      ∃ fault, ofWritten f.toWritten = .error fault ∧
        (∀ first, f.compile first = .error fault) ∧
        ∀ schema, Resolves schema f → f.violation? schema = some (.malformedFilter fault)) := by
  have hcheck : ∀ schema, Resolves schema f →
      f.violation? schema = f.faults.head?.map .malformedFilter := by
    intro schema h
    rw [violation?_eq_head?, violations_of_resolves h, List.head?_map]
  constructor
  · intro shaped
    have hnone : f.faults = [] := faults_eq_nil_iff.mpr shaped
    rw [hnone] at hcheck
    refine ⟨?_, fun first => ?_, hcheck⟩
    · rw [ofWritten_toWritten, hnone]
      rfl
    · obtain ⟨compiled, hcompiled, -⟩ := exists_compile hnone first
      exact ⟨compiled, hcompiled⟩
  · rintro ⟨node, hnode, hcount⟩
    have hsome : f.faults ≠ [] := by
      intro hnone
      have := faults_eq_nil_iff.mp hnone node hnode
      exact Bool.false_ne_true (hcount.symm.trans this)
    obtain ⟨fault, rest, hfaults⟩ := List.exists_cons_of_ne_nil hsome
    rw [hfaults] at hcheck
    refine ⟨fault, ?_, fun first => ?_, hcheck⟩
    · rw [ofWritten_toWritten, hfaults]
      rfl
    · rw [compile_eq, hfaults]
      rfl

/-- Two nodes of a wrong shape, of which the deeper one stands in front. -/
def lopsided : Filter :=
  .logical .or [
    .logical .not [.membership .among (.column "User" "name") []],
    .logical .and [.comparison .like (.column "Post" "title") (.literal (.text "%"))]]

/-- A column between not-a-number and null. -/
def unordered : Filter :=
  .logical .not [.range .between (.column "User" "name")
    (.literal (.float ⟨0x7FF8000000000001⟩)) (.literal .null)]

theorem lopsided_and_unordered_agreed :
    (∃ fault, ofWritten lopsided.toWritten = .error fault ∧ lopsided.compile 7 = .error fault ∧
      lopsided.violation? .authors = some (.malformedFilter fault)) ∧
    ofWritten unordered.toWritten = .ok unordered ∧
    (∃ compiled, unordered.compile 7 = .ok compiled) ∧ unordered.violation? .authors = none := by
  obtain ⟨fault, hread, hcompile, hcheck⟩ := (shape_checkers_agree lopsided).2 (by decide)
  obtain ⟨hback, hcompiled, hpassed⟩ := (shape_checkers_agree unordered).1 (by decide)
  exact ⟨⟨fault, hread, hcompile 7, hcheck .authors (by decide)⟩, hback, hcompiled 7,
    hpassed .authors (by decide)⟩

/-- **A reading succeeds when every node is as the grammar asks.** What it gives is written like the
filter that was read, with its operators in their SQL spelling and nothing else changed, and is read
back from there. A reading fails with the first fault from left to right, a node's token before the
kind of its parts, their number, and its children; no operand is ever found missing. -/
theorem reading_follows_grammar (w : WrittenFilter) :
    ((∃ f, ofWritten w = .ok f) ↔ ∀ node ∈ w.nodes, node.Admitted) ∧
    (∀ f, ofWritten w = .ok f →
      f.toWritten = w.canonical ∧ ofWritten w.canonical = .ok f) ∧
    (∀ fault, ofWritten w = .error fault ↔ w.faults.head? = some fault) ∧
    ∀ fault, ofWritten w = .error fault → fault.reason ≠ "missing variable" := by
  have outcome := read_cases w
  refine ⟨?_, ?_, ?_, ?_⟩
  · rw [← WrittenFilter.faults_eq_nil]
    rcases outcome with ⟨fault, hfirst, hread⟩ | ⟨hnone, f, hread, -⟩
    · constructor
      · rintro ⟨f, hf⟩
        cases hread.symm.trans hf
      · intro hnone
        rw [hnone] at hfirst
        cases hfirst
    · exact ⟨fun _ => hnone, fun _ => ⟨f, hread⟩⟩
  · intro f hf
    rcases outcome with ⟨fault, -, hread⟩ | ⟨-, g, hread, hwritten, hfaults⟩
    · cases hread.symm.trans hf
    · obtain rfl := Except.ok.inj (hread.symm.trans hf)
      refine ⟨hwritten, ?_⟩
      rw [← hwritten, ofWritten_toWritten, hfaults]
      rfl
  · intro fault
    rcases outcome with ⟨first, hfirst, hread⟩ | ⟨hnone, f, hread, -⟩
    · rw [hfirst, hread, Except.error.injEq, Option.some.injEq]
    · simp [hnone, hread]
  · intro fault hfault
    rcases outcome with ⟨first, hfirst, hread⟩ | ⟨-, f, hread, -⟩
    · obtain rfl := Except.error.inj (hread.symm.trans hfault)
      obtain ⟨node, -, hnode⟩ := List.mem_filterMap.mp (List.mem_of_head? hfirst)
      exact WrittenFilter.reason_of_fault? hnode
    · cases hread.symm.trans hfault

/-- A filter in unusual spellings, with a blank that is no space and a letter without its dot. -/
def loose : WrittenFilter :=
  .node "aNd" (some [
    .node "\u2003not\tın" none (some [.column "User" "name", .literal (.text "x")]),
    .node "Not" (some [.node "<" none (some [.literal .null, .literal (.integer 1)])]) none]) none

/-- A filter with nested filters at a comparison, in front of a token that spells no operator. -/
def stray : WrittenFilter :=
  .node "or" (some [.node "=" (some []) none, .node "NOTIN" none none]) none

theorem loose_and_stray_read :
    (∃ f, ofWritten loose = .ok f ∧ f.toWritten = loose.canonical ∧
      ofWritten loose.canonical = .ok f) ∧
    ofWritten stray = .error (.filtersOnLeaf "=") ∧
    (FilterFault.filtersOnLeaf "=").reason ≠ "missing variable" := by
  obtain ⟨accepts, form, -, -⟩ := reading_follows_grammar loose
  obtain ⟨f, hf⟩ := accepts.mpr (WrittenFilter.faults_eq_nil.mp (by decide +kernel))
  obtain ⟨-, -, rejects, never⟩ := reading_follows_grammar stray
  have hfault := (rejects (.filtersOnLeaf "=")).mpr (by decide +kernel)
  exact ⟨⟨f, hf, form f hf⟩, hfault, never _ hfault⟩

end Filter

end TreeQuery
