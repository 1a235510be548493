import TreeQuery.Proofs.Answers
import TreeQuery.Proofs.FilterTokens

/-!
# Names in scope

The clauses of a statement are made apart from each other and have to agree on which entities there
are: the table expressions of the prologue, the joins that bring entities into the subquery one
after another, and the filter whose columns are taken from them.

* `Introduces`: joins whose conditions only mention entities that are there already;
* `Plan.InScope`: a plan all of whose names are brought in before they are used;
* `Plan.ofQuery_cases`, `answer_cases`: what a plan and an answer consist of;
* `statements_in_scope`: every statement of an answer is the text of such a plan.
-/

namespace TreeQuery

open Sql (Column)

/-- Joins that each bring in a new entity, under conditions that compare an entity brought in before
with the new one. -/
inductive Introduces : List String → List Join → Prop
  | nil {scope : List String} : Introduces scope []
  | cons {scope : List String} {join : Join} {joins : List Join} :
      join.entity ∉ scope → join.conditions ≠ [] →
      (∀ c ∈ join.conditions, c.left.entity ∈ scope ∧ c.right.entity = join.entity) →
      Introduces (scope ++ [join.entity]) joins → Introduces scope (join :: joins)

/-- A subquery over some entities, all of them joined to the filtered one before their use. -/
structure KeyFilter.InScope (t : Tree) (f : Filter) (scope : List String) (k : KeyFilter) :
    Prop where
  key : (t.entity? k.entity).map Entity.identifier = some k.key
  key_ne_nil : k.key ≠ []
  source : k.sourceSql = " ".intercalate (Sql.quoteName k.entity :: k.joins.map Join.sql)
  joined : k.entity :: k.joins.map Join.entity = scope
  introduced : Introduces [k.entity] k.joins
  predicate : (f.compile Planner.firstPlaceholder).map Compiled.sql = .ok k.predicate
  /-- The columns that the predicate names are those of the filter. -/
  columns : Sql.columnsOf (Sql.tokens k.predicate) = f.allOperands.filterMap Operand.column?
  columns_mem : ∀ column ∈ Sql.columnsOf (Sql.tokens k.predicate), column.entity ∈ scope
  on_path : ∀ x ∈ scope, x ≠ k.entity →
    ∃ target ∈ f.mentions, ∃ path, t.path k.entity target = .ok path ∧ x ∈ path

/-- A plan for an entity that names other entities only where they are in scope. -/
structure Plan.InScope (t : Tree) (q : Query) (name : String) (scope : List String) (plan : Plan) :
    Prop where
  text : plan.sql = " ".intercalate
    (("WITH " ++ ", ".intercalate plan.ctes) ::
      ("SELECT " ++ ", ".intercalate (plan.select.map Column.sql)) ::
      ("FROM " ++ Sql.quoteName name) :: (plan.filter.map KeyFilter.sql).toList)
  starts : scope.head? = some name
  nodup : scope.Nodup
  /-- The prologue holds the table expressions of the entities in scope as they are, in order. -/
  prologue : List.Forall₂ (fun x cte => (t.entity? x).map Entity.cte = some cte) scope plan.ctes
  selected : ∀ column ∈ plan.select, column.entity = name
  filtered : ∀ f, q.filter = some f →
    ∃ k, plan.filter = some k ∧ k.entity = name ∧ k.InScope t f scope
  unfiltered : q.filter = none → scope = [name] ∧ plan.filter = none ∧ plan.binds = []

/-! ## Clauses -/

theorem intercalate_ne_empty {separator item : String} (h : item ≠ "") (rest : List String) :
    separator.intercalate (item :: rest) ≠ "" := by
  cases rest with
  | nil => simpa using h
  | cons next rest => simp [String.intercalate_cons_cons, h]

theorem KeyFilter.sourceSql_eq (k : KeyFilter) :
    k.sourceSql = " ".intercalate (Sql.quoteName k.entity :: k.joins.map Join.sql) := by
  unfold sourceSql joinsSql
  rw [Text.separated_eq_intercalate]
  cases k.joins with
  | nil => simp
  | cons join joins =>
    have hjoin : join.sql ≠ "" := by simp [Join.sql]
    have hjoins : " ".intercalate (join.sql :: joins.map Join.sql) ≠ "" :=
      intercalate_ne_empty hjoin _
    rw [List.map_cons, String.intercalate_cons_cons]
    exact if_neg hjoins

theorem Plan.sql_eq {plan : Plan} (h : plan.ctes ≠ []) : plan.sql = " ".intercalate
    (("WITH " ++ ", ".intercalate plan.ctes) ::
      ("SELECT " ++ ", ".intercalate (plan.select.map Column.sql)) ::
      ("FROM " ++ Sql.quoteName plan.entity) :: (plan.filter.map KeyFilter.sql).toList) := by
  have hclauses : ∀ clause ∈ plan.clauses, clause ≠ "" := by
    intro clause hclause
    rcases List.mem_append.mp hclause with hclause | hclause
    · rw [List.mem_cons, List.mem_cons, List.mem_singleton] at hclause
      rcases hclause with rfl | rfl | rfl
      · simp [ctesSql, h]
      · simp [selectSql]
      · simp [sourceSql]
    · obtain ⟨k, -, rfl⟩ := Option.map_eq_some_iff.mp (Option.mem_toList.mp hclause)
      unfold KeyFilter.sql
      simp
  have hall : plan.clauses.filter (· ≠ "") = plan.clauses :=
    List.filter_eq_self.mpr fun clause hclause => decide_eq_true (hclauses clause hclause)
  rw [sql, hall, Text.separated_eq_intercalate, clauses, ctesSql, if_neg h, selectSql]
  simp only [Text.separated_eq_intercalate]
  rfl

/-! ## Joins -/

namespace Tree

variable {t : Tree} {joined : List String} {steps : List (String × String)} {joins : List Join}

theorem Attaches.introduces (h : t.Attaches joined steps) (hall : t.StepJoins steps joins) :
    Introduces joined joins := by
  induction h generalizing joins with
  | nil =>
    cases hall
    exact .nil
  | cons hleft hright hadj _ ih =>
    obtain _ | ⟨⟨hentity, hconditions⟩, hrest⟩ := hall
    obtain ⟨hne, hsides⟩ := joinConditions_sides hadj hconditions
    refine .cons (hentity ▸ hright) hne ?_ (hentity ▸ ih hrest)
    intro c hc
    obtain ⟨hl, hr⟩ := hsides c hc
    exact ⟨hl ▸ hleft, hr.trans hentity.symm⟩

end Tree

/-! ## Plans -/

/-- The form in which the filter of a query reaches the plans. -/
inductive Shares : Option Filter → Option SharedFilter → Prop
  | unfiltered : Shares none none
  | filtered {f : Filter} {compiled : Compiled} :
      f.compile Planner.firstPlaceholder = .ok compiled →
      Shares (some f) (some ⟨compiled, f.mentions⟩)

theorem Shares.mentions_mem {q : Query} {shared : Option SharedFilter} {schema : Schema}
    (h : Shares q.filter shared) (hv : q.violation? schema = none) :
    ∀ x ∈ (shared.map SharedFilter.mentions).getD [], x ∈ schema.names := by
  generalize hf : q.filter = filter at h
  cases h with
  | unfiltered => exact nofun
  | filtered hcompile => exact Filter.mem_keys_of_mentions (Query.filter_sound hv hf)

namespace Plan

variable {t : Tree} {config : Config} {name : String} {q : Query} {shared : Option SharedFilter}
  {plan : Plan}

/-- What a plan consists of. -/
theorem ofQuery_cases (h : ofQuery t config name q shared = .ok plan) :
    ∃ entity attributes segments ctes, t.entity? name = some entity ∧
      q.select.get? name = some attributes ∧
      t.joinOrder name ((shared.map SharedFilter.mentions).getD []) = .ok segments ∧
      t.ctes (covered name segments) = .ok ctes ∧
      plan.ctes = ctes ∧ plan.select = selectColumns config name entity attributes q ∧
      plan.entity = name ∧
      (shared = none → plan.filter = none ∧ plan.binds = []) ∧
      ∀ context, shared = some context → ∃ joins, t.joins segments = .ok joins ∧
        plan.filter = some ⟨name, entity.identifier, joins, context.compiled.sql⟩ := by
  unfold ofQuery at h
  cases he : t.entity? name with
  | none => simp [he] at h
  | some entity =>
    cases ha : q.select.get? name with
    | none => simp [he, ha] at h
    | some attributes =>
      simp only [he, ha] at h
      obtain ⟨segments, hsegments, h⟩ := bind_eq_ok_iff.mp h
      obtain ⟨ctes, hctes, h⟩ := bind_eq_ok_iff.mp h
      refine ⟨entity, attributes, segments, ctes, rfl, rfl, hsegments, hctes, ?_⟩
      cases shared with
      | none =>
        obtain rfl := Except.ok.inj h
        refine ⟨rfl, rfl, rfl, fun _ => ⟨rfl, rfl⟩, ?_⟩
        intro context hcontext
        cases hcontext
      | some context =>
        obtain ⟨joins, hjoins, h⟩ := bind_eq_ok_iff.mp h
        obtain rfl := Except.ok.inj h
        refine ⟨rfl, rfl, rfl, ?_, ?_⟩
        · intro hnone
          cases hnone
        · intro context' hcontext
          obtain rfl := Option.some.inj hcontext
          exact ⟨joins, hjoins, rfl⟩

/-- The columns of a compiled filter are taken from the entities that it mentions. -/
theorem columns_of_compile {f : Filter} {first : UInt64} {compiled : Compiled}
    (h : f.compile first = .ok compiled) :
    Sql.columnsOf (Sql.tokens compiled.sql) = f.allOperands.filterMap Operand.column? := by
  obtain ⟨-, htokens, -⟩ := Filter.tokens_of_compile h
  rw [htokens, Sql.columnsOf_number, Filter.operandsOf_tokens]

theorem mem_mentions_of_column {f : Filter} {column : Column}
    (h : column ∈ f.allOperands.filterMap Operand.column?) : column.entity ∈ f.mentions := by
  obtain ⟨operand, hoperand, hcolumn⟩ := List.mem_filterMap.mp h
  cases operand with
  | literal value => cases hcolumn
  | column entity name =>
    obtain rfl := Option.some.inj hcolumn
    exact Filter.mem_mentions.mpr ⟨name, hoperand⟩

theorem keyFilter_inScope {f : Filter} {compiled : Compiled} {entity : Entity}
    {segments : List Segment} {joins : List Join}
    (hcompile : f.compile Planner.firstPlaceholder = .ok compiled)
    (he : t.entity? name = some entity) (hcovers : t.Covers name f.mentions segments)
    (hjoins : t.joins segments = .ok joins) :
    KeyFilter.InScope t f (covered name segments)
      ⟨name, entity.identifier, joins, compiled.sql⟩ := by
  have hattaches := hcovers.grown.attaches
  obtain ⟨joins', hrun, hall⟩ := Tree.exists_joins hattaches.adjacent
  obtain rfl : joins' = joins := Except.ok.inj (hrun.symm.trans hjoins)
  have hcolumns := columns_of_compile hcompile
  constructor
  case key => simp [he]
  case key_ne_nil => exact t.formsTree.identified name entity he
  case source => exact KeyFilter.sourceSql_eq _
  case joined =>
    rw [covered, ← Tree.steps_targets, Tree.joins_targets hall]
  case introduced => exact hattaches.introduces hall
  case predicate => rw [hcompile]; rfl
  case columns => exact hcolumns
  case columns_mem =>
    intro column hcolumn
    rw [hcolumns] at hcolumn
    exact hcovers.targets_mem _ (mem_mentions_of_column hcolumn)
  case on_path =>
    intro x hx hne
    exact ((hcovers.mem_iff x).mp hx).resolve_left hne

/-- Planning for an entity of the schema brings in every name before its use. -/
theorem inScope_of_ofQuery (hv : q.violation? t.schema = none)
    (hshared : Shares q.filter shared) (hn : name ∈ t.schema.names)
    (h : ofQuery t config name q shared = .ok plan) :
    ∃ scope, plan.InScope t q name scope := by
  obtain ⟨entity, attributes, segments, ctes, he, -, hsegments, hctes, hprologue, hselect, hentity,
    hnone, hsome⟩ := ofQuery_cases h
  have known := List.forall_mem_cons.mpr ⟨hn, hshared.mentions_mem hv⟩
  obtain ⟨segments', hrun, hext⟩ := Tree.joinOrder_extends known
  obtain rfl : segments' = segments := Except.ok.inj (hrun.symm.trans hsegments)
  have hcovers := hext.covers known
  obtain ⟨ctes', hrun', bodies⟩ := Tree.exists_ctes (hext.mem_names hn)
  obtain rfl : ctes' = ctes := Except.ok.inj (hrun'.symm.trans hctes)
  refine ⟨covered name segments', ?_⟩
  constructor
  case text =>
    have hne : plan.ctes ≠ [] := by
      rintro hnil
      rw [← hprologue, hnil] at bodies
      cases bodies
    rw [sql_eq hne, hentity]
  case starts => exact hcovers.starts
  case nodup => exact hcovers.nodup
  case prologue =>
    rw [hprologue]
    exact bodies
  case selected =>
    intro column hcolumn
    rw [hselect, selectColumns] at hcolumn
    obtain ⟨_, -, rfl⟩ := List.mem_map.mp hcolumn
    rfl
  case filtered =>
    intro f hf
    rw [hf] at hshared
    cases hshared with
    | filtered hcompile =>
      obtain ⟨joins, hjoins, hfilter⟩ := hsome _ rfl
      exact ⟨_, hfilter, rfl, keyFilter_inScope hcompile he hcovers hjoins⟩
  case unfiltered =>
    intro hf
    rw [hf] at hshared
    cases hshared
    cases hext
    exact ⟨rfl, hnone rfl⟩

end Plan

/-! ## Answers -/

namespace Planner

variable {p : Planner} {q : Query} {statements : List (String × Statement)}

theorem statements_cases {shared : Option SharedFilter}
    (h : p.statements q shared = .ok statements) :
    ∀ entry ∈ statements, ∃ plan : Plan,
      Plan.ofQuery p.tree p.config entry.1 q shared = .ok plan ∧ entry.2 = plan.statement := by
  intro entry hentry
  obtain ⟨name, -, hname⟩ := exists_of_mapM_eq_ok h entry hentry
  obtain ⟨plan, hplan, hresult⟩ := bind_eq_ok_iff.mp hname
  obtain rfl := Except.ok.inj hresult
  exact ⟨plan, hplan, rfl⟩

/-- What an answer consists of. -/
theorem answer_cases (hp : p.Coherent) (h : (p.answer q).1 = .ok statements) :
    ∃ shared, Shares q.filter shared ∧ ∀ entry ∈ statements, ∃ plan : Plan,
      Plan.ofQuery p.tree p.config entry.1 q shared = .ok plan ∧ entry.2 = plan.statement := by
  unfold answer at h
  cases hv : q.violation? p.tree.schema with
  | some violation => simp [hv] at h
  | none =>
    cases hf : q.filter with
    | none =>
      simp only [hv, hf] at h
      exact ⟨none, .unfiltered, statements_cases h⟩
    | some f =>
      obtain ⟨hresult, service⟩ := compile_spec hp f
      cases hcompiled : f.compile firstPlaceholder with
      | error fault => simp [hv, hf, hresult, hcompiled] at h
      | ok compiled =>
        simp only [hv, hf, hresult, hcompiled] at h
        have hentries := statements_cases h
        rw [service.tree, service.config] at hentries
        exact ⟨_, .filtered hcompiled, hentries⟩

/-- **Every statement names entities only where they are in scope.** The prologue holds the table
expressions of some entities, each once and the selected one first; the outer query is about the
selected entity only; the joins of the subquery bring in the others one after another, each under
conditions over entities that are there already; and the columns of the filter are taken from them.
Every one of the others lies on the way to an entity that the filter mentions, and without a filter
there are none. -/
theorem statements_in_scope {s : Schema} {config : Config} (hp : ofSchema s config = .ok p)
    (earlier : List Query) (hv : q.violation? s = none) :
    ∃ statements, ((p.after earlier).answer q).1 = .ok statements ∧
      statements.map Prod.fst = q.select.keys ∧
      ∀ entry ∈ statements, ∃ (plan : Plan) (scope : List String), entry.2 = plan.statement ∧
        plan.InScope p.tree q entry.1 scope := by
  obtain ⟨rfl, -, coherent⟩ := ofSchema_spec hp
  obtain ⟨htree, -, coherent⟩ := after_sameService coherent earlier
  have hv' : q.violation? (p.after earlier).tree.schema = none := by rw [htree, hv]
  obtain ⟨statements, hrun, hkeys, -⟩ := exists_answer coherent hv'
  refine ⟨statements, hrun, hkeys, fun entry hentry => ?_⟩
  obtain ⟨shared, hshared, hentries⟩ := answer_cases coherent hrun
  obtain ⟨plan, hplan, hstatement⟩ := hentries entry hentry
  have hname : entry.1 ∈ q.select.keys := hkeys ▸ List.mem_map_of_mem hentry
  rw [htree] at hplan
  obtain ⟨scope, hscope⟩ := Plan.inScope_of_ofQuery hv hshared (Query.select_known hv _ hname) hplan
  exact ⟨plan, scope, hstatement, hscope⟩

theorem taggedPosts_in_scope :
    ∃ statements, (((new .blog {}).after []).answer .taggedPosts).1 = .ok statements ∧
      statements.map Prod.fst = ["Post", "User"] ∧
      ∀ entry ∈ statements, ∃ (plan : Plan) (scope : List String), entry.2 = plan.statement ∧
        plan.InScope .blog .taggedPosts entry.1 scope :=
  statements_in_scope ofSchema_blog [] Query.taggedPosts_valid

end Planner

end TreeQuery
