import TreeQuery.Planner
import TreeQuery.Proofs.Compilation
import TreeQuery.Proofs.JoinSteps
import TreeQuery.Proofs.Remembering

/-!
# Answers

A query without violations is answered, whatever was asked before.

* `Query.violations`: all that is wrong with a query, in the order in which it is judged;
* `exists_ofQuery`: planning does not fail on entities of the schema;
* `Coherent`: the cache of a planner holds compiled filters;
* `fails_on_violations_only`: what a planner answers, and when it fails.
-/

namespace TreeQuery

/-! ## Queries and what is wrong with them -/

namespace Query

variable {schema : Schema} {q : Query}

/-- All that is wrong with one selection: the entity, or the attributes that it lacks. -/
def selectionViolations (schema : Schema) (entity : String) (attributes : OrderedSet String) :
    List QueryViolation :=
  match schema.entity? entity with
  | none => [.unknownEntity entity]
  | some declared =>
    (attributes.toList.filter (!declared.attributes.contains ·)).map (.unknownAttribute entity)

/-- All that is wrong with a query: the selections in order, then the filter. -/
def violations (schema : Schema) (q : Query) : List QueryViolation :=
  (q.select.entries.flatMap fun (entity, attributes) =>
    selectionViolations schema entity attributes) ++
  (q.filter.map (·.violations schema)).getD []

/-- The literals of the filter, if there is one. -/
def literals (q : Query) : List Literal := (q.filter.map (·.literals)).getD []

theorem selectionViolation?_eq_head? (entity : String) (attributes : OrderedSet String) :
    selectionViolation? schema entity attributes =
      (selectionViolations schema entity attributes).head? := by
  unfold selectionViolation? selectionViolations
  cases schema.entity? entity with
  | none => rfl
  | some declared => simp [List.head?_filter]

theorem violation?_eq_head? : q.violation? schema = (q.violations schema).head? := by
  rw [violation?, violations, List.head?_append, List.head?_flatMap]
  simp only [selectionViolation?_eq_head?]
  cases q.filter with
  | none => rfl
  | some f => simp [Filter.violation?_eq_head?]

theorem select_known (h : q.violation? schema = none) :
    ∀ name ∈ q.select.keys, name ∈ schema.names := by
  rw [violation?_eq_head?, List.head?_eq_none_iff, violations, List.append_eq_nil_iff,
    List.flatMap_eq_nil_iff] at h
  intro name hn
  obtain ⟨attributes, ha⟩ := OrderedMap.mem_keys_iff.mp hn
  have hsel := h.1 _ (OrderedMap.get?_eq_some_iff.mp ha)
  cases he : schema.entity? name with
  | some entity => exact Schema.mem_names.mpr ⟨entity, he⟩
  | none => simp [selectionViolations, he] at hsel

theorem filter_sound (h : q.violation? schema = none) {f : Filter} (hf : q.filter = some f) :
    f.violations schema = [] := by
  rw [violation?_eq_head?, List.head?_eq_none_iff, violations, List.append_eq_nil_iff, hf] at h
  exact h.2

end Query

/-! ## Planning -/

namespace Tree

variable {t : Tree} {names : List String}

theorem exists_ctes (h : ∀ name ∈ names, name ∈ t.schema.names) :
    ∃ ctes, t.ctes names = .ok ctes ∧
      List.Forall₂ (fun name cte => (t.entity? name).map (·.cte) = some cte) names ctes := by
  refine exists_mapM_eq_ok fun name hn => ?_
  obtain ⟨entity, he⟩ := Schema.mem_names.mp (h name hn)
  have he : t.entity? name = some entity := he
  exact ⟨entity.cte, by rw [he], by rw [he, Option.map_some]⟩

end Tree

/-- The plan for a selected entity succeeds if the filter mentions entities of the schema only. -/
theorem Plan.exists_ofQuery {t : Tree} {name : String} {q : Query} {attributes : OrderedSet String}
    (config : Config) (filter : Option SharedFilter) (hn : name ∈ t.schema.names)
    (hs : q.select.get? name = some attributes)
    (hm : ∀ entity ∈ (filter.map SharedFilter.mentions).getD [], entity ∈ t.schema.names) :
    ∃ plan, Plan.ofQuery t config name q filter = .ok plan ∧
      plan.binds = (filter.map (·.compiled.binds)).getD [] := by
  obtain ⟨entity, he⟩ := Schema.mem_names.mp hn
  have he : t.entity? name = some entity := he
  have known := List.forall_mem_cons.mpr ⟨hn, hm⟩
  obtain ⟨segments, hrun, hext⟩ := Tree.joinOrder_extends known
  obtain ⟨ctes, hctes, _⟩ := Tree.exists_ctes (hext.mem_names hn)
  obtain ⟨joins, hjoins, _⟩ := Tree.exists_joins hext.attaches.adjacent
  cases filter with
  | none =>
    have hplan : Plan.ofQuery t config name q none =
        .ok ⟨ctes, selectColumns config name entity attributes q, name, none, []⟩ := by
      simp only [Plan.ofQuery, he, hs, hrun, hctes, ok_bind]
      rfl
    exact ⟨_, hplan, rfl⟩
  | some context =>
    have hrun : t.joinOrder name context.mentions = .ok segments := hrun
    have hplan : Plan.ofQuery t config name q (some context) =
        .ok ⟨ctes, selectColumns config name entity attributes q, name,
          some ⟨name, entity.identifier, joins, context.compiled.sql⟩, context.compiled.binds⟩ := by
      simp only [Plan.ofQuery, he, hs, Option.map_some, Option.getD_some, hrun, hctes, hjoins,
        ok_bind]
      rfl
    exact ⟨_, hplan, rfl⟩

/-! ## Planners -/

namespace Planner

variable {p : Planner} {q : Query}

/-- The planner after it has answered some queries. -/
def after (p : Planner) (queries : List Query) : Planner :=
  queries.foldl (fun p q => (p.answer q).2) p

/-- The cache of a planner holds filters with what they compile to. -/
def Coherent (p : Planner) : Prop :=
  ∀ memo, p.cache = some memo → memo.Holds (·.compile firstPlaceholder)

/-- A planner for the same tree and configuration, and with a cache as good. -/
structure SameService (p p' : Planner) : Prop where
  tree : p'.tree = p.tree
  config : p'.config = p.config
  coherent : p'.Coherent

theorem compile_spec (h : p.Coherent) (f : Filter) :
    (p.compile f).1 = f.compile firstPlaceholder ∧ p.SameService (p.compile f).2 := by
  unfold compile
  cases hc : p.cache with
  | none => exact ⟨rfl, rfl, rfl, h⟩
  | some memo =>
    obtain ⟨hget, hholds⟩ := (h memo hc).get (Memo.respects_of_lawful _) f
    refine ⟨hget, rfl, rfl, ?_⟩
    intro memo' hmemo
    exact Option.some.inj hmemo ▸ hholds

theorem answer_sameService (h : p.Coherent) (q : Query) : p.SameService (p.answer q).2 := by
  have same : p.SameService p := ⟨rfl, rfl, h⟩
  unfold answer
  cases q.violation? p.tree.schema with
  | some violation => exact same
  | none =>
    cases q.filter with
    | none => exact same
    | some f =>
      have hservice := (compile_spec h f).2
      cases hc : p.compile f with
      | mk compiled p' =>
        rw [hc] at hservice
        cases hcompiled : compiled <;> simpa [hc, hcompiled] using hservice

theorem after_sameService (h : p.Coherent) (queries : List Query) :
    p.SameService (p.after queries) := by
  induction queries generalizing p with
  | nil => exact ⟨rfl, rfl, h⟩
  | cons q queries ih =>
    have hq := answer_sameService h q
    have hrest := ih hq.coherent
    exact ⟨hrest.tree.trans hq.tree, hrest.config.trans hq.config, hrest.coherent⟩

theorem ofSchema_spec {s : Schema} {config : Config} (h : ofSchema s config = .ok p) :
    p.tree.schema = s ∧ p.config = config ∧ p.Coherent := by
  unfold ofSchema at h
  cases ht : Tree.ofSchema s with
  | error violation => rw [ht] at h; cases h
  | ok t =>
    rw [ht, ok_bind] at h
    obtain rfl := Except.ok.inj h
    refine ⟨Tree.ofSchema_eq_ok_iff.mp ht, rfl, fun memo hmemo => ?_⟩
    simp only [new] at hmemo
    split at hmemo
    · exact Option.some.inj hmemo ▸ Memo.empty_holds
    · cases hmemo

/-- What a planner was made of is there whatever it has answered. -/
theorem after_spec {s : Schema} {config : Config} (h : ofSchema s config = .ok p)
    (earlier : List Query) : (p.after earlier).tree.schema = s ∧
      (p.after earlier).config = config ∧ (p.after earlier).Coherent := by
  obtain ⟨hschema, hconfig, coherent⟩ := ofSchema_spec h
  have service := after_sameService coherent earlier
  exact ⟨service.tree ▸ hschema, service.config.trans hconfig, service.coherent⟩

/-- Every tree has a planner, which has not answered anything. -/
theorem ofSchema_tree (t : Tree) (config : Config) :
    ofSchema t.schema config = .ok (new t config) := by
  have accepted : Tree.ofSchema t.schema = .ok t := Tree.ofSchema_eq_ok_iff.mpr rfl
  rw [ofSchema, accepted]
  rfl

/-- The cache is empty at first. -/
theorem ofSchema_cache {s : Schema} {config : Config} (h : ofSchema s config = .ok p) :
    p.cache = if config.cacheEnabled then some .empty else none := by
  obtain ⟨rfl, -, -⟩ := ofSchema_spec h
  have hnew : p = new p.tree config := Except.ok.inj (h.symm.trans (ofSchema_tree p.tree config))
  rw [hnew]
  rfl

/-- All selected entities of a known schema get a statement. -/
theorem exists_statements (filter : Option SharedFilter)
    (hs : ∀ name ∈ q.select.keys, name ∈ p.tree.schema.names)
    (hm : ∀ entity ∈ (filter.map SharedFilter.mentions).getD [], entity ∈ p.tree.schema.names) :
    ∃ statements, p.statements q filter = .ok statements ∧
      statements.map Prod.fst = q.select.keys ∧
      ∀ entry ∈ statements, entry.2.binds = (filter.map (·.compiled.binds)).getD [] := by
  have each : ∀ name ∈ q.select.keys, ∃ entry,
      (do return (name, (← Plan.ofQuery p.tree p.config name q filter).statement)) = .ok entry ∧
      entry.1 = name ∧ entry.2.binds = (filter.map (·.compiled.binds)).getD [] := by
    intro name hn
    obtain ⟨attributes, ha⟩ := OrderedMap.mem_keys_iff.mp hn
    obtain ⟨plan, hplan, hbinds⟩ := Plan.exists_ofQuery p.config filter (hs name hn) ha hm
    exact ⟨(name, plan.statement), by rw [hplan]; rfl, rfl, hbinds⟩
  obtain ⟨statements, hrun, hall⟩ := exists_mapM_eq_ok each
  refine ⟨statements, hrun, ?_⟩
  clear hrun
  generalize q.select.keys = names at hall
  induction hall with
  | nil => exact ⟨rfl, nofun⟩
  | cons hentry _ ih =>
    exact ⟨congrArg₂ _ hentry.1 ih.1, List.forall_mem_cons.mpr ⟨hentry.2, ih.2⟩⟩

theorem answer_of_violation {violation : QueryViolation}
    (hv : q.violation? p.tree.schema = some violation) :
    (p.answer q).1 = .error (.query violation) := by
  rw [answer, hv]

/-- No stage fails on a query without violations, with whatever the cache holds. -/
theorem exists_answer (hp : p.Coherent) (hv : q.violation? p.tree.schema = none) :
    ∃ statements, (p.answer q).1 = .ok statements ∧
      statements.map Prod.fst = q.select.keys ∧
      ∀ entry ∈ statements, entry.2.binds = q.literals := by
  have hs := Query.select_known hv
  cases hf : q.filter with
  | none =>
    obtain ⟨statements, hrun, hkeys, hbinds⟩ := exists_statements none hs nofun
    refine ⟨statements, ?_, hkeys, ?_⟩
    · simp only [answer, hv, hf, hrun]
    · simpa [Query.literals, hf] using hbinds
  | some f =>
    have sound := Query.filter_sound hv hf
    obtain ⟨compiled, hcompiled, hliterals⟩ :=
      Filter.exists_compile (Filter.faults_eq_nil sound) firstPlaceholder
    obtain ⟨hresult, service⟩ := compile_spec hp f
    obtain ⟨statements, hrun, hkeys, hbinds⟩ :=
      exists_statements (p := (p.compile f).2) (some ⟨compiled, f.mentions⟩)
        (service.tree ▸ hs) (service.tree ▸ Filter.mem_keys_of_mentions sound)
    refine ⟨statements, ?_, hkeys, ?_⟩
    · simp only [answer, hv, hf, hresult, hcompiled, hrun]
    · intro entry hentry
      rw [hbinds entry hentry]
      simp [Query.literals, hf, hliterals]

theorem keys_of_answer {statements : List (String × Statement)} (hp : p.Coherent)
    (h : (p.answer q).1 = .ok statements) : statements.map Prod.fst = q.select.keys := by
  cases hv : q.violation? p.tree.schema with
  | some violation =>
    rw [answer_of_violation hv] at h
    cases h
  | none =>
    obtain ⟨statements', hanswer, hkeys, -⟩ := exists_answer hp hv
    obtain rfl := Except.ok.inj (h.symm.trans hanswer)
    exact hkeys

/-- **A query fails exactly when it has a violation, and with the first one.** Otherwise it gets one
statement for each selected entity, in the order of the selection, and every statement comes with
the literals of the filter from left to right. What the planner was asked before plays no part. -/
theorem fails_on_violations_only {s : Schema} {config : Config} (hp : ofSchema s config = .ok p)
    (earlier : List Query) (q : Query) :
    q.violation? s = (q.violations s).head? ∧
    (∀ e, ((p.after earlier).answer q).1 = .error e ↔
      ∃ violation, q.violation? s = some violation ∧ e = .query violation) ∧
    (q.violation? s = none →
      ∃ statements, ((p.after earlier).answer q).1 = .ok statements ∧
        statements.map Prod.fst = q.select.keys ∧
        ∀ entry ∈ statements, entry.2.binds = q.literals) := by
  obtain ⟨rfl, -, coherent⟩ := ofSchema_spec hp
  obtain ⟨htree, -, coherent⟩ := after_sameService coherent earlier
  rw [← htree]
  refine ⟨Query.violation?_eq_head?, fun e => ?_, exists_answer coherent⟩
  cases hv : q.violation? (p.after earlier).tree.schema with
  | some violation => simp [answer_of_violation hv, eq_comm]
  | none =>
    obtain ⟨statements, hrun, -⟩ := exists_answer coherent hv
    simp [hrun]

end Planner

/-- Posts and their authors, with a filter over tags and authors. -/
def Query.taggedPosts : Query where
  select := .ofList [("Post", .ofList ["title"]), ("User", .ofList ["name", "age"])]
  filter := some <| .logical .and
    [.comparison .equal (.column "Tag" "label") (.literal (.text "lean")),
      .range .between (.column "User" "age") (.literal (.integer 18)) (.literal (.integer 30))]

theorem Query.taggedPosts_valid : Query.taggedPosts.violation? .blog = none := by
  rw [Query.violation?_eq_head?]
  decide +kernel

theorem Planner.ofSchema_blog : ofSchema .blog {} = .ok (new .blog {}) := ofSchema_tree .blog {}

theorem Planner.taggedPosts_answered_again :
    ∃ statements,
      (((new .blog {}).after [⟨.ofList [("Ghost", .empty)], none⟩, .taggedPosts]).answer
        .taggedPosts).1 = .ok statements ∧
      statements.map Prod.fst = ["Post", "User"] ∧
      ∀ entry ∈ statements, entry.2.binds = [.text "lean", .integer 18, .integer 30] :=
  (fails_on_violations_only ofSchema_blog _ .taggedPosts).2.2 Query.taggedPosts_valid

end TreeQuery
