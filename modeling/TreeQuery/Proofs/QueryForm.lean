import TreeQuery.Proofs.Caching

/-!
# Queries up to their literals

The form of a query is what is left of it when its literals are blotted out. Nothing but the form
decides what is wrong with a query and which texts it gets: the answer to a query is the answer to
its form with the literals put beside the texts.

* `Query.form`: a query with every literal blotted out;
* `violation?_form`, `mentions_form`, `compile_form`: what the stages make of a form;
* `answer_form`: the answer to a query, from the answer to its form;
* `literals_leave_no_trace`: queries of one form get the same texts.
-/

namespace TreeQuery

/-! ## Forms -/

/-- An operand with its literal blotted out. -/
def Operand.form : Operand → Operand
  | .column entity name => .column entity name
  | .literal _ => .literal .null

namespace Filter

mutual
/-- A filter with its literals blotted out, whatever their kinds. -/
def form : Filter → Filter
  | .logical op fs => .logical op (formAll fs)
  | .comparison op left right => .comparison op left.form right.form
  | .range op subject low high => .range op subject.form low.form high.form
  | .membership op subject candidates => .membership op subject.form (candidates.map Operand.form)

def formAll : List Filter → List Filter
  | [] => []
  | f :: fs => form f :: formAll fs
end

end Filter

def Query.form (q : Query) : Query := ⟨q.select, q.filter.map Filter.form⟩

namespace Operand

theorem violation?_form (schema : Schema) (operand : Operand) :
    operand.form.violation? schema = operand.violation? schema := by
  cases operand <;> rfl

theorem entity?_form (operand : Operand) : operand.form.entity? = operand.entity? := by
  cases operand <;> rfl

theorem literal?_form (operand : Operand) :
    operand.form.literal? = operand.literal?.map fun _ => .null := by
  cases operand <;> rfl

/-- A literal shows in the texts by its number only. -/
theorem texts_form (first : UInt64) (operands : List Operand) :
    texts first (operands.map form) = texts first operands := by
  induction operands generalizing first with
  | nil => rfl
  | cons operand operands ih => cases operand <;> simp only [List.map_cons, form, texts, ih]

end Operand

namespace Filter

variable {schema : Schema}

theorem length_formAll (fs : List Filter) : (formAll fs).length = fs.length := by
  induction fs with
  | nil => rfl
  | cons f fs ih => rw [formAll, List.length_cons, List.length_cons, ih]

theorem operator_form (f : Filter) : f.form.operator = f.operator := by
  cases f <;> rfl

theorem operands_form (f : Filter) : f.form.operands = f.operands.map Operand.form := by
  cases f <;> rfl

theorem count_form (f : Filter) : f.form.count = f.count := by
  cases f with
  | logical _ fs => exact length_formAll fs
  | comparison | range => rfl
  | membership _ subject candidates => simp [form, count, operands]

theorem fault?_form (f : Filter) : f.form.fault? = f.fault? := by
  rw [fault?, fault?, operator_form, count_form]

mutual
theorem nodes_form : ∀ f : Filter, f.form.nodes = f.nodes.map form
  | .logical _ fs => congrArg (List.cons _) (nodesOf_formAll fs)
  | .comparison .. => rfl
  | .range .. => rfl
  | .membership .. => rfl

theorem nodesOf_formAll : ∀ fs : List Filter, nodesOf (formAll fs) = (nodesOf fs).map form
  | [] => rfl
  | f :: fs => by
    rw [formAll, nodesOf, nodesOf, nodes_form f, nodesOf_formAll fs, List.map_append]
end

theorem allOperands_form (f : Filter) : f.form.allOperands = f.allOperands.map Operand.form := by
  simp only [allOperands, nodes_form, List.flatMap_map, List.map_flatMap, operands_form]

/-- There is a literal in the form wherever there was one. -/
theorem literals_form (f : Filter) : f.form.literals = f.literals.map fun _ => .null := by
  rw [literals, allOperands_form, List.filterMap_map, literals, List.map_filterMap]
  exact List.filterMap_congr fun operand _ => operand.literal?_form

/-! ## What the stages make of a form -/

theorem violation?_form (f : Filter) : f.form.violation? schema = f.violation? schema := by
  have own (node : Filter) : node.form.ownViolations schema = node.ownViolations schema := by
    rw [ownViolations, fault?_form, operands_form, List.filterMap_map, ownViolations]
    congr 1
    exact List.filterMap_congr fun operand _ => operand.violation?_form schema
  rw [violation?_eq_head?, violation?_eq_head?, violations, nodes_form, List.flatMap_map,
    violations]
  simp only [own]

theorem mentions_form (f : Filter) : f.form.mentions = f.mentions := by
  have same : f.form.allOperands.filterMap (·.entity?) = f.allOperands.filterMap (·.entity?) := by
    rw [allOperands_form, List.filterMap_map]
    exact List.filterMap_congr fun operand _ => operand.entity?_form
  rw [mentions_eq, mentions_eq, same]

theorem leafText_form (f : Filter) (parts : List String) :
    f.form.leafText parts = f.leafText parts := by
  -- the frame is chosen by the node and the number of its parts together
  rcases parts with _ | ⟨_, _ | ⟨_, _ | ⟨_, _ | _⟩⟩⟩ <;> cases f <;> rfl

theorem expandLeaf_form (first : UInt64) (f : Filter) :
    (f.form.expandLeaf first).map Compiled.sql = (f.expandLeaf first).map Compiled.sql := by
  rw [expandLeaf, fault?_form, expandLeaf]
  cases f.fault? with
  | some fault => rfl
  | none =>
    simp only [Except.map, leafText_form, operands_form, Operand.texts_form]

/-- The text of a logical node is made of the texts of its children. -/
theorem map_sql_logical (op : LogicalOp) (parts : Except FilterFault (List Compiled)) :
    Except.map Compiled.sql (do
        let compiled ← parts
        return ⟨logicalText op (compiled.map fun part => "(" ++ part.sql ++ ")"),
          compiled.flatMap Compiled.binds⟩) =
      (parts.map (List.map Compiled.sql)).map fun texts =>
        logicalText op (texts.map fun text => "(" ++ text ++ ")") := by
  cases parts with
  | error fault => rfl
  | ok parts => simp [Except.map, Function.comp_def, pure, Except.pure]

theorem map_sql_cons (part : Except FilterFault Compiled)
    (parts : Except FilterFault (List Compiled)) :
    Except.map (List.map Compiled.sql) (do return (← part) :: (← parts)) =
      (do return (← part.map Compiled.sql) :: (← parts.map (List.map Compiled.sql))) := by
  cases part with
  | error fault => rfl
  | ok part => cases parts <;> rfl

mutual
/-- A form compiles to the same text, or fails with the same fault. -/
theorem expand_form : ∀ (f : Filter) (first : UInt64),
    (f.form.expand first).map Compiled.sql = (f.expand first).map Compiled.sql
  | .logical op fs, first => by
    rw [form, expand, length_formAll, expand]
    cases (Operator.logical op).arityFault? fs.length with
    | some fault => rfl
    | none =>
      dsimp only
      rw [map_sql_logical, map_sql_logical, expandAll_form fs first]
  | .comparison op left right, first => expandLeaf_form first (.comparison op left right)
  | .range op subject low high, first => expandLeaf_form first (.range op subject low high)
  | .membership op subject candidates, first =>
    expandLeaf_form first (.membership op subject candidates)

theorem expandAll_form : ∀ (fs : List Filter) (first : UInt64),
    (expandAll first (formAll fs)).map (List.map Compiled.sql) =
      (expandAll first fs).map (List.map Compiled.sql)
  | [], _ => rfl
  | f :: fs, first => by
    have next : f.form.literals.length = f.literals.length := by
      rw [literals_form, List.length_map]
    rw [formAll, expandAll, expandAll, map_sql_cons, map_sql_cons, next, expand_form f first,
      expandAll_form fs]
end

theorem compile_form (f : Filter) (first : UInt64) :
    (f.form.compile first).map Compiled.sql = (f.compile first).map Compiled.sql := by
  rw [compile_eq_expand, compile_eq_expand, expand_form]

/-- A filter compiles to what its form compiles to, with its own literals. -/
theorem compile_of_form {f : Filter} {first : UInt64} {compiled : Compiled}
    (h : f.compile first = .ok compiled) :
    ∃ blotted, f.form.compile first = .ok blotted ∧ compiled = ⟨blotted.sql, f.literals⟩ := by
  have hform := f.compile_form first
  rw [h] at hform
  cases hblotted : f.form.compile first with
  | error fault => rw [hblotted] at hform; cases hform
  | ok blotted =>
    rw [hblotted] at hform
    have hsql : blotted.sql = compiled.sql := Except.ok.inj hform
    refine ⟨blotted, rfl, ?_⟩
    rw [hsql, ← binds_of_compile h]

end Filter

/-! ## Putting literals in -/

namespace Query

variable {schema : Schema}

theorem violation?_form (q : Query) : q.form.violation? schema = q.violation? schema := by
  cases hf : q.filter with
  | none => simp [form, violation?, hf]
  | some f => simp [form, violation?, hf, Filter.violation?_form]

theorem literals_form (q : Query) : q.form.literals = q.literals.map fun _ => .null := by
  cases hf : q.filter with
  | none => simp [form, literals, hf]
  | some f => simp [form, literals, hf, Filter.literals_form]

end Query

def SharedFilter.put (binds : List Literal) (shared : SharedFilter) : SharedFilter :=
  ⟨⟨shared.compiled.sql, binds⟩, shared.mentions⟩

def Plan.put (binds : List Literal) (plan : Plan) : Plan := { plan with binds := binds }

/-- The statements of an answer with other literals beside the same texts. -/
def Statement.put (binds : List Literal) (entry : String × Statement) : String × Statement :=
  (entry.1, ⟨entry.2.sql, binds⟩)

/-- A filter is shared like its form, but with its literals. -/
theorem Shares.put {q : Query} {shared : Option SharedFilter} (h : Shares q.filter shared) :
    ∃ blotted, Shares q.form.filter blotted ∧ shared = blotted.map (.put q.literals) ∧
      (blotted = none → q.literals = []) := by
  unfold Query.form Query.literals
  generalize q.filter = filter at h
  cases h with
  | unfiltered => exact ⟨none, .unfiltered, rfl, fun _ => rfl⟩
  | @filtered f compiled hcompile =>
    obtain ⟨blotted, hblotted, rfl⟩ := Filter.compile_of_form hcompile
    refine ⟨_, .filtered hblotted, ?_, nofun⟩
    rw [Filter.mentions_form]
    rfl

/-- No clause of a plan looks at the literals. -/
theorem Plan.ofQuery_put (t : Tree) (config : Config) (name : String) (q : Query)
    {shared : Option SharedFilter} {binds : List Literal} (h : shared = none → binds = []) :
    ofQuery t config name q (shared.map (.put binds)) =
      (ofQuery t config name q shared).map (.put binds) := by
  have hmentions : (shared.map (.put binds)).map SharedFilter.mentions =
      shared.map SharedFilter.mentions := by
    cases shared <;> rfl
  unfold ofQuery
  rw [hmentions]
  cases t.entity? name with
  | none => rfl
  | some entity =>
    cases q.select.get? name with
    | none => rfl
    | some attributes =>
      refine bind_eq_map fun segments => bind_eq_map fun ctes => ?_
      cases shared with
      | none =>
        obtain rfl := h rfl
        rfl
      | some context => exact bind_eq_map fun joins => rfl

namespace Planner

variable {p : Planner} {q q' : Query}

/-- An answer is the answer to the form of the query with the literals put in. -/
theorem answer_form (hp : p.Coherent) (q : Query) :
    (p.answer q).1 = (p.answer q.form).1.map (List.map (Statement.put q.literals)) := by
  have hform : q.form.violation? p.tree.schema = q.violation? p.tree.schema := q.violation?_form
  cases hv : q.violation? p.tree.schema with
  | some violation =>
    rw [answer_of_violation hv, answer_of_violation (hform.trans hv)]
    rfl
  | none =>
    obtain ⟨shared, hshared, hanswer⟩ := answer_eq_statements hp hv
    obtain ⟨blotted, hblotted, hanswer'⟩ := answer_eq_statements hp (hform.trans hv)
    obtain ⟨blotted', hblotted', rfl, hbinds⟩ := hshared.put
    obtain rfl := hblotted.unique hblotted'
    rw [hanswer, hanswer']
    refine mapM_map fun name _ => ?_
    rw [Plan.ofQuery_put p.tree p.config name q hbinds]
    change _ = Except.map _ (do
      return (name, (← Plan.ofQuery p.tree p.config name q blotted).statement))
    cases Plan.ofQuery p.tree p.config name q blotted <;> rfl

/-- **Literals leave no trace in a text.** Two queries of one form, whatever was asked before them,
both fail with one error, or get the same texts for the same entities. Beside each text stand the
literals of the own filter from left to right, as many for the one query as for the other. -/
theorem literals_leave_no_trace {s : Schema} {config : Config} (hp : ofSchema s config = .ok p)
    (earlier earlier' : List Query) (hform : q.form = q'.form) :
    q.literals.length = q'.literals.length ∧
    ((∃ e, ((p.after earlier).answer q).1 = .error e ∧
        ((p.after earlier').answer q').1 = .error e) ∨
      ∃ texts : List (String × String), texts.map Prod.fst = q.select.keys ∧
        ((p.after earlier).answer q).1 =
          .ok (texts.map fun (name, sql) => (name, ⟨sql, q.literals⟩)) ∧
        ((p.after earlier').answer q').1 =
          .ok (texts.map fun (name, sql) => (name, ⟨sql, q'.literals⟩))) := by
  obtain ⟨rfl, rfl, coherent⟩ := after_spec hp earlier
  obtain ⟨hschema, hconfig, coherent'⟩ := after_spec hp earlier'
  have hanswer := answer_form coherent q
  have hanswer' := answer_form coherent' q'
  have hlength : q.literals.length = q'.literals.length := by
    have hblotted := congrArg (·.literals.length) hform
    simpa only [Query.literals_form, List.length_map] using hblotted
  have agree : ((p.after earlier').answer q'.form).1 = ((p.after earlier).answer q.form).1 := by
    rw [hform]
    exact answer_agrees coherent' coherent (Tree.schema_injective hschema) (.of_eq hconfig) q'.form
  rw [agree] at hanswer'
  refine ⟨hlength, ?_⟩
  cases hblotted : ((p.after earlier).answer q.form).1 with
  | error e =>
    rw [hblotted] at hanswer hanswer'
    exact .inl ⟨e, hanswer, hanswer'⟩
  | ok statements =>
    rw [hblotted] at hanswer hanswer'
    refine .inr ⟨statements.map fun entry => (entry.1, entry.2.sql), ?_, ?_, ?_⟩
    · rw [List.map_map]
      exact keys_of_answer (q := q.form) coherent hblotted
    · rw [hanswer, List.map_map]
      rfl
    · rw [hanswer', List.map_map]
      rfl

end Planner

/-- The tagged posts again, with other values of other kinds to compare with. -/
def Query.untaggedPosts : Query where
  select := Query.taggedPosts.select
  filter := some <| .logical .and
    [.comparison .equal (.column "Tag" "label") (.literal .null),
      .range .between (.column "User" "age") (.literal (.text ") OR (:1")) (.literal (.float ⟨0⟩))]

theorem Planner.taggedPosts_leave_no_trace :
    Query.taggedPosts.form = Query.untaggedPosts.form ∧
    ∃ texts : List (String × String), texts.map Prod.fst = ["Post", "User"] ∧
      (((new .blog {}).after []).answer .taggedPosts).1 =
        .ok (texts.map fun (name, sql) =>
          (name, ⟨sql, [.text "lean", .integer 18, .integer 30]⟩)) ∧
      (((new .blog {}).after [.taggedPosts]).answer .untaggedPosts).1 =
        .ok (texts.map fun (name, sql) =>
          (name, ⟨sql, [.null, .text ") OR (:1", .float ⟨0⟩]⟩)) := by
  have hform : Query.taggedPosts.form = Query.untaggedPosts.form := rfl
  obtain ⟨-, ⟨e, herror, -⟩ | htexts⟩ :=
    literals_leave_no_trace ofSchema_blog [] [.taggedPosts] hform
  · have coherent := (ofSchema_spec ofSchema_blog).2.2
    obtain ⟨statements, hanswer, -⟩ := exists_answer coherent Query.taggedPosts_valid
    cases herror.symm.trans hanswer
  · exact ⟨hform, htexts⟩

end TreeQuery
