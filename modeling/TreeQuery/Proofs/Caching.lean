import TreeQuery.Proofs.Scope

/-!
# Answers with and without a cache

* `answer_eq_statements`: what a query without violations is answered, said without the cache;
* `answer_agrees`, `answers_agree`: planners whose statements have the same columns answer alike,
  whatever their caches hold;
* `Query.lookedUp?`, `after_remembers`: the filters that a run looks up, and what they leave behind;
* `cache_never_shows`: a run with a cache is answered like one without, and its hits and misses.
-/

namespace TreeQuery

/-- Configurations under which statements have the same columns. -/
structure Config.SameColumns (c c' : Config) : Prop where
  identifier : c.identifierColumn = c'.identifierColumn
  references : c.referencePrefix = c'.referencePrefix

theorem Config.SameColumns.of_eq {c c' : Config} (h : c = c') : c.SameColumns c' :=
  h ▸ ⟨rfl, rfl⟩

/-- The filter that answering a query looks up: its own, unless something is wrong with it. -/
def Query.lookedUp? (schema : Schema) (q : Query) : Option Filter :=
  match q.violation? schema with
  | some _ => none
  | none => q.filter

theorem Query.lookedUp?_eq_some_iff {schema : Schema} {q : Query} {f : Filter} :
    q.lookedUp? schema = some f ↔ q.violation? schema = none ∧ q.filter = some f := by
  unfold lookedUp?
  cases q.violation? schema with
  | none => simp
  | some violation => simp

/-- A filter is shared in one form only. -/
theorem Shares.unique {filter : Option Filter} {shared shared' : Option SharedFilter}
    (h : Shares filter shared) (h' : Shares filter shared') : shared = shared' := by
  cases h with
  | unfiltered =>
    cases h'
    rfl
  | filtered hcompile =>
    cases h' with
    | filtered hcompile' =>
      obtain rfl := Except.ok.inj (hcompile.symm.trans hcompile')
      rfl

/-- Of a configuration, a plan has nothing but the columns. -/
theorem Plan.ofQuery_sameColumns {config config' : Config} (h : config.SameColumns config')
    (t : Tree) (name : String) (q : Query) (shared : Option SharedFilter) :
    ofQuery t config name q shared = ofQuery t config' name q shared := by
  have hreference : config.referenceColumn = config'.referenceColumn := by
    funext entity
    rw [Config.referenceColumn, Config.referenceColumn, h.references]
  have hselect : selectColumns config = selectColumns config' := by
    funext name entity attributes q
    rw [selectColumns, selectColumns, h.identifier, hreference]
  unfold ofQuery
  rw [hselect]

namespace Planner

/-- What a planner answers to some queries, one after another. -/
def answers (p : Planner) : List Query → List (Except PlanError (List (String × Statement)))
  | [] => []
  | q :: queries => (p.answer q).1 :: (p.answer q).2.answers queries

variable {p p' : Planner} {q : Query} {queries : List Query} {shared : Option SharedFilter}

/-! ## One answer -/

theorem statements_agree (htree : p.tree = p'.tree) (hconfig : p.config.SameColumns p'.config) :
    p.statements q shared = p'.statements q shared := by
  unfold statements
  rw [htree]
  simp only [Plan.ofQuery_sameColumns hconfig]

/-- A query without violations is answered by the statements under its filter, whatever the cache
holds. -/
theorem answer_eq_statements (hp : p.Coherent) (hv : q.violation? p.tree.schema = none) :
    ∃ shared, Shares q.filter shared ∧ (p.answer q).1 = p.statements q shared := by
  cases hf : q.filter with
  | none =>
    refine ⟨none, .unfiltered, ?_⟩
    simp only [answer, hv, hf]
  | some f =>
    have sound := Query.filter_sound hv hf
    obtain ⟨compiled, hcompiled, -⟩ :=
      Filter.exists_compile (Filter.faults_eq_nil sound) firstPlaceholder
    obtain ⟨hresult, service⟩ := compile_spec hp f
    have hagree : (p.compile f).2.statements q (some ⟨compiled, f.mentions⟩) =
        p.statements q (some ⟨compiled, f.mentions⟩) :=
      statements_agree service.tree (.of_eq service.config)
    refine ⟨_, .filtered hcompiled, ?_⟩
    simp only [answer, hv, hf, hresult, hcompiled, hagree]

theorem answer_agrees (hp : p.Coherent) (hp' : p'.Coherent) (htree : p.tree = p'.tree)
    (hconfig : p.config.SameColumns p'.config) (q : Query) : (p.answer q).1 = (p'.answer q).1 := by
  cases hv : q.violation? p.tree.schema with
  | some violation =>
    rw [answer_of_violation hv, answer_of_violation (htree ▸ hv)]
  | none =>
    obtain ⟨shared, hshared, hanswer⟩ := answer_eq_statements hp hv
    obtain ⟨shared', hshared', hanswer'⟩ := answer_eq_statements hp' (htree ▸ hv)
    obtain rfl := hshared.unique hshared'
    rw [hanswer, hanswer', statements_agree htree hconfig]

/-! ## Runs of answers -/

/-- Call by call, the caches play no part. -/
theorem answers_agree (hp : p.Coherent) (hp' : p'.Coherent) (htree : p.tree = p'.tree)
    (hconfig : p.config.SameColumns p'.config) : p.answers queries = p'.answers queries := by
  induction queries generalizing p p' with
  | nil => rfl
  | cons q queries ih =>
    have next := answer_sameService hp q
    have next' := answer_sameService hp' q
    have hrest := ih next.coherent next'.coherent (next.tree.trans (htree.trans next'.tree.symm))
      (next.config ▸ next'.config ▸ hconfig)
    rw [answers, answers, answer_agrees hp hp' htree hconfig, hrest]

theorem answer_snd (p : Planner) (q : Query) :
    (p.answer q).2 = match q.lookedUp? p.tree.schema with
      | none => p
      | some f => (p.compile f).2 := by
  unfold answer Query.lookedUp?
  cases q.violation? p.tree.schema with
  | some violation => rfl
  | none =>
    cases q.filter with
    | none => rfl
    | some f =>
      cases hc : p.compile f with
      | mk compiled next => cases compiled <;> simp [hc]

/-- The planner holds a memory that a run of look-ups has left behind. -/
def Remembers (p : Planner) (memo : Memo Filter Compiled) (looked : List Filter) : Prop :=
  p.cache = some memo ∧ memo.Follows looked

/-- One more query looks its filter up, and one without a look-up leaves the memory as it is. -/
theorem Remembers.answer {memo : Memo Filter Compiled} {looked : List Filter}
    (h : p.Remembers memo looked) (q : Query) :
    ∃ memo', (p.answer q).2.Remembers memo' (looked ++ (q.lookedUp? p.tree.schema).toList) ∧
      (q.lookedUp? p.tree.schema = none → memo' = memo) ∧
      ∀ f, q.lookedUp? p.tree.schema = some f → (memo'.hits, memo'.misses) =
        if looked.getLast? = some f then (memo.hits + 1, memo.misses)
        else (memo.hits, memo.misses + 1) := by
  obtain ⟨hcache, hfollows⟩ := h
  have hsnd := p.answer_snd q
  cases hlook : q.lookedUp? p.tree.schema with
  | none =>
    rw [hlook] at hsnd
    refine ⟨memo, ?_, fun _ => rfl, nofun⟩
    rw [hsnd, Option.toList_none, List.append_nil]
    exact ⟨hcache, hfollows⟩
  | some f =>
    rw [hlook] at hsnd
    obtain ⟨hv, hf⟩ := Query.lookedUp?_eq_some_iff.mp hlook
    -- a filter that is looked up compiles, so that the slot is taken over on a miss
    have sound := Query.filter_sound hv hf
    obtain ⟨compiled, hcompiled, -⟩ :=
      Filter.exists_compile (Filter.faults_eq_nil sound) firstPlaceholder
    obtain ⟨hafter, hcounts⟩ := hfollows.get (·.compile firstPlaceholder) hcompiled
    refine ⟨_, ⟨?_, hafter⟩, nofun, ?_⟩
    · rw [hsnd]
      simp only [compile, hcache]
    · intro f' hf'
      obtain rfl := Option.some.inj hf'
      exact hcounts

theorem after_remembers (hp : p.Coherent) {memo : Memo Filter Compiled} {looked : List Filter}
    (h : p.Remembers memo looked) (queries : List Query) :
    ∃ memo', (p.after queries).Remembers memo'
      (looked ++ queries.filterMap (Query.lookedUp? p.tree.schema)) := by
  induction queries generalizing p memo looked with
  | nil => exact ⟨memo, by simpa [after] using h⟩
  | cons q queries ih =>
    obtain ⟨next, hnext, -⟩ := h.answer q
    have hservice := answer_sameService hp q
    obtain ⟨last, hlast⟩ := ih hservice.coherent hnext
    refine ⟨last, ?_⟩
    rw [hservice.tree, List.append_assoc] at hlast
    cases hlook : q.lookedUp? p.tree.schema with
    | none => simpa [hlook, after] using hlast
    | some f => simpa [hlook, after] using hlast

/-- **A cache never shows in the answers.** Whatever is asked in a row, a planner with a cache
answers as one without. Its hits and misses together are the queries without violations that came
with a filter, in words that start over; the next such query is a hit exactly if the last of them
came with the same filter; and any other query leaves slot and counts as they are. -/
theorem cache_never_shows {s : Schema} (config : Config)
    (hp : ofSchema s { config with cacheEnabled := true } = .ok p)
    (hp' : ofSchema s { config with cacheEnabled := false } = .ok p') (queries : List Query) :
    p.answers queries = p'.answers queries ∧
    ∃ memo, (p.after queries).cache = some memo ∧
      memo.hits + memo.misses = .ofNat (queries.filterMap (Query.lookedUp? s)).length ∧
      ((queries.filterMap (Query.lookedUp? s)).length < UInt64.size →
        memo.hits.toNat + memo.misses.toNat =
          (queries.filterMap (Query.lookedUp? s)).length) ∧
      ∀ q, ∃ memo', ((p.after queries).answer q).2.cache = some memo' ∧
        (q.lookedUp? s = none → memo' = memo) ∧
        ∀ f, q.lookedUp? s = some f → (memo'.hits, memo'.misses) =
          if (queries.filterMap (Query.lookedUp? s)).getLast? = some f
          then (memo.hits + 1, memo.misses) else (memo.hits, memo.misses + 1) := by
  obtain ⟨rfl, hconfig, coherent⟩ := ofSchema_spec hp
  obtain ⟨hschema', hconfig', coherent'⟩ := ofSchema_spec hp'
  have same : p.config.SameColumns p'.config := by
    rw [hconfig, hconfig']
    exact ⟨rfl, rfl⟩
  have htree : p.tree = p'.tree := Tree.schema_injective hschema'.symm
  have hstart : p.Remembers .empty [] := ⟨ofSchema_cache hp, Memo.empty_follows⟩
  refine ⟨answers_agree coherent coherent' htree same, ?_⟩
  obtain ⟨memo, hremembers⟩ := after_remembers coherent hstart queries
  have counted := hremembers.2.counted
  refine ⟨memo, hremembers.1, counted.word, counted.value, fun q => ?_⟩
  obtain ⟨memo', hafter, hnone, hsome⟩ := hremembers.answer q
  rw [(after_sameService coherent queries).tree] at hnone hsome
  exact ⟨memo', hafter.1, hnone, hsome⟩

end Planner

/-- Posts whose title equals the number of the given bits. -/
def Filter.titled (bits : UInt64) : Filter :=
  .comparison .equal (.column "Post" "title") (.literal (.float ⟨bits⟩))

def Query.titled (bits : UInt64) : Query where
  select := .ofList [("Post", .ofList ["title"])]
  filter := some (.titled bits)

/-- The zeros of both signs and a not-a-number, with queries that look nothing up in between. -/
def Query.zeros : List Query :=
  [.titled 0, .titled 0x8000000000000000, ⟨.ofList [("Ghost", .empty)], some (.titled 0)⟩,
    ⟨.ofList [("User", .empty)], none⟩, .titled 0x8000000000000000, .titled 0x7FF8000000000000]

theorem Query.zeros_lookedUp :
    Query.zeros.filterMap (Query.lookedUp? .blog) =
      [.titled 0, .titled 0x8000000000000000, .titled 0x8000000000000000,
        .titled 0x7FF8000000000000] := by
  have lookedUp?_eq : Query.lookedUp? .blog =
      fun q => if q.violations .blog = [] then q.filter else none := by
    funext q
    rw [lookedUp?, violation?_eq_head?]
    cases q.violations .blog <;> rfl
  rw [lookedUp?_eq]
  decide +kernel

theorem Planner.zeros_answered_alike :
    (new .blog {}).answers Query.zeros =
      (new .blog { cacheEnabled := false }).answers Query.zeros ∧
    ∃ memo, ((new .blog {}).after Query.zeros).cache = some memo ∧ memo.hits + memo.misses = 4 ∧
      memo.hits.toNat + memo.misses.toNat = 4 ∧
      ∃ memo', (((new .blog {}).after Query.zeros).answer (.titled 0x7FF8000000000000)).2.cache =
          some memo' ∧ (memo'.hits, memo'.misses) = (memo.hits + 1, memo.misses) := by
  obtain ⟨hanswers, memo, hcache, hword, hvalue, hnext⟩ :=
    cache_never_shows (s := .blog) {} (ofSchema_tree .blog _) (ofSchema_tree .blog _) Query.zeros
  rw [Query.zeros_lookedUp] at hword hvalue hnext
  refine ⟨hanswers, memo, hcache, hword, hvalue (by decide), ?_⟩
  obtain ⟨memo', hcache', -, hsome⟩ := hnext (.titled 0x7FF8000000000000)
  have hlooked : (Query.titled 0x7FF8000000000000).lookedUp? .blog =
      some (.titled 0x7FF8000000000000) := by
    rw [Query.lookedUp?_eq_some_iff, Query.violation?_eq_head?]
    decide +kernel
  exact ⟨memo', hcache', hsome _ hlooked⟩

end TreeQuery
