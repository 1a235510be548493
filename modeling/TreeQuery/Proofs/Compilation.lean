import TreeQuery.Filter.Compiled
import TreeQuery.Proofs.FilterReading

/-!
# Compilation by recursion

The stack of open nodes does what a plain recursion over the filter says.

* `Filter.text`: the text of a filter by recursion, with the numbering handed from child to child;
* `compileOpen_eq_close`: what a stack of open nodes still owes, said by that recursion;
* `compile_eq`: a compilation fails with the first fault of a reading, or gives that text;
* `text_advances`: the literals are taken out from left to right.
-/

namespace TreeQuery

namespace Filter

mutual
/-- The text of a filter, with its literals taken out. -/
def text : Filter → StateM Numbering String
  | .logical op fs => do return logicalSql op (← texts fs)
  | leaf => leaf.leafSql

/-- The texts of nested filters in parentheses, numbered one after another. -/
def texts : List Filter → StateM Numbering (List String)
  | [] => pure []
  | f :: fs => do
    let sql ← text f
    let rest ← texts fs
    return ("(" ++ sql ++ ")") :: rest
end

end Filter

open TreeQuery.Filter

/-- The numbering after some more literals are taken out. -/
def Numbering.advance (numbering : Numbering) (values : List Literal) : Numbering :=
  ⟨numbering.next + UInt64.ofNat values.length, numbering.binds ++ values⟩

theorem Numbering.advance_nil (numbering : Numbering) : numbering.advance [] = numbering := by
  simp [advance]

theorem Numbering.advance_advance (numbering : Numbering) (values more : List Literal) :
    (numbering.advance values).advance more = numbering.advance (values ++ more) := by
  simp [advance, UInt64.ofNat_add, UInt64.add_assoc]

theorem stateM_bind {σ α β : Type} (x : StateM σ α) (f : α → StateM σ β) (s : σ) :
    (x >>= f) s = f (x s).1 (x s).2 := rfl

theorem stateM_pure {σ α : Type} (a : α) (s : σ) : (pure a : StateM σ α) s = (a, s) := rfl

namespace OpenNode

/-- The text of an open node, its remaining children by recursion. -/
def complete (node : OpenNode) : StateM Numbering String := do
  let parts ← texts node.pending
  finish ⟨node.filter, [], node.parts ++ parts⟩

/-- What an open node and those around it still owe, from the innermost node outwards. -/
def close (numbering : Numbering) (node : OpenNode) (outer : List OpenNode) :
    Except FilterFault Compiled :=
  match (nodesOf node.pending).findSome? fault? with
  | some fault => .error fault
  | none =>
    match outer with
    | [] => .ok ⟨(node.complete numbering).1, (node.complete numbering).2.binds⟩
    | parent :: outer =>
      close (node.complete numbering).2 (parent.addPart (node.complete numbering).1) outer

theorem complete_ofFilter (f : Filter) (numbering : Numbering) :
    (ofFilter f).complete numbering = f.text numbering := by
  cases f <;> rfl

theorem complete_pending_nil (node : OpenNode) (numbering : Numbering) (h : node.pending = []) :
    node.complete numbering = node.finish numbering := by
  obtain ⟨filter, pending, parts⟩ := node
  subst h
  simp [complete, texts, stateM_bind, stateM_pure]

/-- The text of the next child is its part of the text of the node. -/
theorem complete_cons (node child : Filter) (rest : List Filter) (parts : List String)
    (numbering : Numbering) :
    (⟨node, child :: rest, parts⟩ : OpenNode).complete numbering =
      (addPart ⟨node, rest, parts⟩ (child.text numbering).1).complete
        (child.text numbering).2 := by
  simp only [complete, texts, addPart, stateM_bind, stateM_pure, List.append_assoc,
    List.cons_append, List.nil_append]

theorem close_of_fault (numbering : Numbering) {node : OpenNode} {fault : FilterFault}
    (h : (nodesOf node.pending).findSome? fault? = some fault) (outer : List OpenNode) :
    node.close numbering outer = .error fault := by
  cases outer <;> simp [close, h]

/-- Compiling the next child and going on with its text owes the same as before. -/
theorem close_child (numbering : Numbering) (node child : Filter) (rest : List Filter)
    (parts : List String) (outer : List OpenNode) (h : child.fault? = none) :
    (ofFilter child).close numbering (⟨node, rest, parts⟩ :: outer) =
      close numbering ⟨node, child :: rest, parts⟩ outer := by
  have split : (nodesOf (child :: rest)).findSome? fault? =
      ((nodesOf child.children).findSome? fault?).or ((nodesOf rest).findSome? fault?) := by
    rw [nodesOf_cons, nodesOf_append, List.findSome?_cons, h, List.findSome?_append]
  cases hc : (nodesOf child.children).findSome? fault? with
  | some fault =>
    rw [hc, Option.some_or] at split
    rw [close_of_fault numbering hc, close_of_fault numbering split]
  | none =>
    rw [hc, Option.none_or] at split
    have hchild : (nodesOf (ofFilter child).pending).findSome? fault? = none := hc
    rw [close, hchild]
    dsimp only
    rw [complete_ofFilter, close.eq_def, close.eq_def numbering, complete_cons, split]
    rfl

end OpenNode

namespace Filter

open OpenNode

theorem compileOpen_eq_close (numbering : Numbering) (node : OpenNode) (outer : List OpenNode) :
    compileOpen numbering node outer = node.close numbering outer := by
  fun_induction compileOpen numbering node outer with
  | case1 numbering node child rest parts outer fault h =>
    refine (close_of_fault numbering ?_ outer).symm
    rw [nodesOf_cons, List.findSome?_cons, h]
  | case2 numbering node child rest parts outer h ih =>
    rw [ih, close_child numbering node child rest parts outer h]
  | case3 numbering node parts sql numbering' h =>
    rw [close, complete_pending_nil _ _ rfl, h]
    rfl
  | case4 numbering node parts sql numbering' h parent outer ih =>
    rw [ih, close.eq_def numbering, complete_pending_nil _ _ rfl, h]
    rfl

/-- A compilation fails with the first fault of a reading, or gives the text by recursion. -/
theorem compile_eq (f : Filter) (first : UInt64) :
    f.compile first = match f.faults.head? with
      | some fault => .error fault
      | none => .ok ⟨(f.text ⟨first, []⟩).1, (f.text ⟨first, []⟩).2.binds⟩ := by
  rw [compile, faults, List.head?_filterMap, nodes_eq, List.findSome?_cons]
  cases hf : f.fault? with
  | some fault => rfl
  | none =>
    dsimp only
    rw [compileOpen_eq_close, close, complete_ofFilter]
    rfl

/-! ## The literals -/

theorem sql_advances (operand : Operand) (numbering : Numbering) :
    (operand.sql numbering).2 = numbering.advance operand.literal?.toList := by
  cases operand with
  | column entity name => exact numbering.advance_nil.symm
  | literal value => rfl

theorem mapM_sql_advances (operands : List Operand) (numbering : Numbering) :
    (operands.mapM Operand.sql numbering).2 =
      numbering.advance (operands.filterMap (·.literal?)) := by
  induction operands generalizing numbering with
  | nil => exact numbering.advance_nil.symm
  | cons operand operands ih =>
    simp only [List.mapM_cons, stateM_bind, stateM_pure, ih, sql_advances,
      Numbering.advance_advance]
    cases operand <;> rfl

theorem leafSql_advances (f : Filter) (numbering : Numbering) :
    (f.leafSql numbering).2 = numbering.advance (f.operands.filterMap (·.literal?)) := by
  cases f with
  | logical => exact numbering.advance_nil.symm
  | comparison op left right =>
    simp only [leafSql, stateM_bind, stateM_pure, sql_advances, Numbering.advance_advance, operands]
    cases left <;> cases right <;> rfl
  | range op subject low high =>
    simp only [leafSql, stateM_bind, stateM_pure, sql_advances, Numbering.advance_advance, operands]
    cases subject <;> cases low <;> cases high <;> rfl
  | membership op subject candidates =>
    simp only [leafSql, stateM_bind, stateM_pure, sql_advances, mapM_sql_advances,
      Numbering.advance_advance, operands]
    cases subject <;> rfl

theorem leaf_advances {f : Filter} (h : f.nodes = [f]) (numbering : Numbering) :
    (f.leafSql numbering).2 = numbering.advance f.literals := by
  rw [leafSql_advances, literals_of_leaf h]

mutual
/-- The literals are taken out in the order of the operands. -/
theorem text_advances : ∀ (f : Filter) (numbering : Numbering),
    (f.text numbering).2 = numbering.advance f.literals
  | .logical _ fs, numbering => texts_advances fs numbering
  | .comparison .., numbering => leaf_advances rfl numbering
  | .range .., numbering => leaf_advances rfl numbering
  | .membership .., numbering => leaf_advances rfl numbering

theorem texts_advances : ∀ (fs : List Filter) (numbering : Numbering),
    (texts fs numbering).2 =
      numbering.advance (((nodesOf fs).flatMap operands).filterMap (·.literal?))
  | [], numbering => numbering.advance_nil.symm
  | f :: fs, numbering => by
    simp only [texts, stateM_bind, stateM_pure, texts_advances fs, text_advances f,
      Numbering.advance_advance, nodesOf, literals, allOperands, List.flatMap_append,
      List.filterMap_append]
end

/-- A filter without faults is compiled, and its literals are handed over from left to right. -/
theorem exists_compile {f : Filter} (h : f.faults = []) (first : UInt64) :
    ∃ compiled, f.compile first = .ok compiled ∧ compiled.binds = f.literals := by
  refine ⟨_, by rw [compile_eq, h]; rfl, ?_⟩
  rw [text_advances]
  rfl

/-- A filter that compiles hands over its literals. -/
theorem binds_of_compile {f : Filter} {first : UInt64} {compiled : Compiled}
    (h : f.compile first = .ok compiled) : compiled.binds = f.literals := by
  cases hf : f.faults with
  | nil =>
    obtain ⟨compiled', hcompiled, hbinds⟩ := exists_compile hf first
    obtain rfl := Except.ok.inj (h.symm.trans hcompiled)
    exact hbinds
  | cons fault faults =>
    rw [compile_eq, hf] at h
    cases h

end Filter

end TreeQuery
