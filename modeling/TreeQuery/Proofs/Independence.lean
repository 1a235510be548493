import TreeQuery.Proofs.Caching

/-!
# Statements on their own

A query asks for several entities at once, under one filter that is compiled once. Still the
statement for an entity depends on the filter, on what is asked of this entity, and on which of the
entities that it refers to are selected, and on nothing else.

* `Query.AsksAlike`: two queries that ask the same of an entity;
* `Plan.ofQuery_of_asksAlike`: they get one plan for it;
* `mem_answer_of_asksAlike`: and one statement, whatever stands beside it in the answer;
* `statements_stand_alone`: the statements of two queries, and of one in another order.
-/

namespace TreeQuery

/-- Two queries that ask for the same attributes of an entity, and that select the same of the
entities that it refers to. -/
structure Query.AsksAlike (s : Schema) (q q' : Query) (name : String) : Prop where
  attributes : ∃ asked, q.select.get? name = some asked ∧ q'.select.get? name = some asked
  references : ∀ referenced, (s.reference? name referenced).isSome →
    q.selects referenced = q'.selects referenced

variable {q q' : Query} {name : String}

namespace Query.AsksAlike

variable {s : Schema}

theorem symm (h : q.AsksAlike s q' name) : q'.AsksAlike s q name where
  attributes := by
    obtain ⟨asked, hq, hq'⟩ := h.attributes
    exact ⟨asked, hq', hq⟩
  references referenced hr := (h.references referenced hr).symm

theorem mem_keys (h : q.AsksAlike s q' name) : name ∈ q.select.keys := by
  obtain ⟨asked, hq, -⟩ := h.attributes
  exact OrderedMap.mem_keys_iff.mpr ⟨asked, hq⟩

/-- The order of the selection plays no part in what is asked of an entity. -/
theorem of_perm (h : q.select.entries.Perm q'.select.entries) (hn : name ∈ q.select.keys) :
    q.AsksAlike s q' name where
  attributes := by
    obtain ⟨asked, hq⟩ := OrderedMap.mem_keys_iff.mp hn
    exact ⟨asked, hq, OrderedMap.get?_eq_some_iff.mpr
      (h.mem_iff.mp (OrderedMap.get?_eq_some_iff.mp hq))⟩
  references referenced _ := by
    rw [selects, selects, Bool.eq_iff_iff, OrderedMap.contains_iff, OrderedMap.contains_iff]
    exact (h.map Prod.fst).mem_iff

end Query.AsksAlike

/-! ## Plans -/

theorem selectColumns_of_asksAlike {s : Schema} {entity : Entity} (h : q.AsksAlike s q' name)
    (he : s.entity? name = some entity) (config : Config) (attributes : OrderedSet String) :
    selectColumns config name entity attributes q =
      selectColumns config name entity attributes q' := by
  have hselected : entity.references.keys.filter q.selects =
      entity.references.keys.filter q'.selects := by
    refine List.filter_congr fun referenced hr => ?_
    exact h.references referenced (Schema.reference?_isSome.mpr ⟨entity, he, hr⟩)
  rw [selectColumns, selectColumns, hselected]

theorem Plan.ofQuery_of_asksAlike {t : Tree} (h : q.AsksAlike t.schema q' name) (config : Config)
    (shared : Option SharedFilter) :
    ofQuery t config name q shared = ofQuery t config name q' shared := by
  obtain ⟨asked, hq, hq'⟩ := h.attributes
  unfold ofQuery
  cases he : t.entity? name with
  | none => rfl
  | some entity => simp only [hq, hq', selectColumns_of_asksAlike h he]

/-! ## Answers -/

namespace Planner

variable {p p' : Planner} {statements statements' : List (String × Statement)}
  {statement : Statement}

theorem nodup_answer (hp : p.Coherent) (h : (p.answer q).1 = .ok statements) :
    statements.Nodup := by
  have hkeys : (statements.map Prod.fst).Nodup := keys_of_answer hp h ▸ q.select.nodup
  exact hkeys.of_map

theorem exists_mem_answer (hp : p.Coherent) (h : (p.answer q).1 = .ok statements)
    (hn : name ∈ q.select.keys) : ∃ statement, (name, statement) ∈ statements := by
  rw [← keys_of_answer hp h] at hn
  obtain ⟨⟨_, statement⟩, hmem, rfl⟩ := List.mem_map.mp hn
  exact ⟨statement, hmem⟩

/-- A statement stands in every answer to a query that asks the same of its entity. -/
theorem mem_answer_of_asksAlike (hp : p.Coherent) (hp' : p'.Coherent) (htree : p.tree = p'.tree)
    (hconfig : p.config = p'.config) (hfilter : q.filter = q'.filter)
    (h : (p.answer q).1 = .ok statements) (h' : (p'.answer q').1 = .ok statements')
    (alike : q.AsksAlike p.tree.schema q' name) (hmem : (name, statement) ∈ statements) :
    (name, statement) ∈ statements' := by
  obtain ⟨shared, hshared, hplans⟩ := answer_cases hp h
  obtain ⟨shared', hshared', hplans'⟩ := answer_cases hp' h'
  obtain rfl := hshared.unique (hfilter ▸ hshared')
  obtain ⟨statement', hmem'⟩ := exists_mem_answer hp' h' alike.symm.mem_keys
  obtain ⟨plan, hplan, hstatement⟩ := hplans _ hmem
  obtain ⟨plan', hplan', hstatement'⟩ := hplans' _ hmem'
  have same : plan = plan' := by
    rw [Plan.ofQuery_of_asksAlike alike, htree, hconfig] at hplan
    exact Except.ok.inj (hplan.symm.trans hplan')
  have hsame : statement = statement' := hstatement.trans (same ▸ hstatement'.symm)
  exact hsame ▸ hmem'

/-- Answers to one selection in two orders, one of which has all that the other has. The entities of
an answer are distinct, so that none of its entries can stand for two. -/
theorem answer_perm (hp : p.Coherent) (hp' : p'.Coherent) (h : (p.answer q).1 = .ok statements)
    (h' : (p'.answer q').1 = .ok statements') (hperm : q.select.entries.Perm q'.select.entries)
    (hsubset : statements ⊆ statements') : statements.Perm statements' := by
  have hlength : statements'.length = statements.length := by
    calc
      statements'.length = q'.select.keys.length := by rw [← keys_of_answer hp' h', List.length_map]
      _ = q.select.keys.length := (hperm.map Prod.fst).length_eq.symm
      _ = statements.length := by rw [← keys_of_answer hp h, List.length_map]
  exact (List.subperm_of_subset (nodup_answer hp h) hsubset).perm_of_length_le hlength.le

/-- **A statement stands on its own.** Two queries with one filter that ask the same of an entity
get the same statement for it, whatever else they select and whatever was asked before them. If
their selections differ in the order only, so do their answers. -/
theorem statements_stand_alone {s : Schema} {config : Config} (hp : ofSchema s config = .ok p)
    (earlier earlier' : List Query) (hv : q.violation? s = none) (hv' : q'.violation? s = none)
    (hfilter : q.filter = q'.filter) :
    ∃ statements statements',
      ((p.after earlier).answer q).1 = .ok statements ∧
      ((p.after earlier').answer q').1 = .ok statements' ∧
      statements.map Prod.fst = q.select.keys ∧ statements'.map Prod.fst = q'.select.keys ∧
      (∀ name, q.AsksAlike s q' name →
        ∃ statement, (name, statement) ∈ statements ∧ (name, statement) ∈ statements') ∧
      (q.select.entries.Perm q'.select.entries → statements.Perm statements') := by
  obtain ⟨rfl, hconfig, coherent⟩ := after_spec hp earlier
  obtain ⟨hschema, hconfig', coherent'⟩ := after_spec hp earlier'
  have htree : (p.after earlier).tree = (p.after earlier').tree :=
    Tree.schema_injective hschema.symm
  have same : (p.after earlier).config = (p.after earlier').config := hconfig.trans hconfig'.symm
  obtain ⟨statements, hanswer, hkeys, -⟩ := exists_answer coherent hv
  obtain ⟨statements', hanswer', hkeys', -⟩ := exists_answer coherent' (hschema ▸ hv')
  have onward {name : String} {statement : Statement}
      (alike : q.AsksAlike (p.after earlier).tree.schema q' name) :
      (name, statement) ∈ statements → (name, statement) ∈ statements' :=
    mem_answer_of_asksAlike coherent coherent' htree same hfilter hanswer hanswer' alike
  refine ⟨statements, statements', hanswer, hanswer', hkeys, hkeys', ?_, ?_⟩
  · intro name alike
    obtain ⟨statement, hmem⟩ := exists_mem_answer coherent hanswer alike.mem_keys
    exact ⟨statement, hmem, onward alike hmem⟩
  · intro hperm
    refine answer_perm coherent coherent' hanswer hanswer' hperm fun entry hmem => ?_
    exact onward (.of_perm hperm (hkeys ▸ List.mem_map_of_mem hmem)) hmem

end Planner

/-- The tagged posts with other entities before and after them, and without the names of users. -/
def Query.commentedPosts : Query where
  select := .ofList
    [("Comment", .ofList ["body"]), ("Post", .ofList ["title"]), ("User", .empty), ("Tag", .empty)]
  filter := Query.taggedPosts.filter

/-- The tagged posts behind their users. -/
def Query.postsOfUsers : Query where
  select := .ofList [("User", .ofList ["name", "age"]), ("Post", .ofList ["title"])]
  filter := Query.taggedPosts.filter

theorem Query.taggedPosts_asksAlike :
    Query.taggedPosts.AsksAlike .blog .commentedPosts "Post" where
  attributes := ⟨.ofList ["title"], by decide +kernel, by decide +kernel⟩
  references referenced hr := by
    have hkeys : (Schema.blog.entity? "Post").map (·.references.keys) = some ["User"] := by
      decide +kernel
    obtain ⟨entity, he, hr⟩ := Schema.reference?_isSome.mp hr
    rw [he, Option.map_some, Option.some.injEq] at hkeys
    rw [hkeys, List.mem_singleton] at hr
    subst hr
    decide +kernel

theorem Planner.taggedPosts_stand_alone :
    (∃ statements statements' statement,
      (((new .blog {}).after []).answer .taggedPosts).1 = .ok statements ∧
      (((new .blog {}).after Query.zeros).answer .commentedPosts).1 = .ok statements' ∧
      ("Post", statement) ∈ statements ∧ ("Post", statement) ∈ statements') ∧
    ∃ statements statements',
      (((new .blog {}).after Query.zeros).answer .taggedPosts).1 = .ok statements ∧
      (((new .blog {}).after [.taggedPosts]).answer .postsOfUsers).1 = .ok statements' ∧
      statements.Perm statements' := by
  have commented : Query.commentedPosts.violation? .blog = none := by
    rw [Query.violation?_eq_head?]
    decide +kernel
  have ofUsers : Query.postsOfUsers.violation? .blog = none := by
    rw [Query.violation?_eq_head?]
    decide +kernel
  constructor
  · obtain ⟨statements, statements', hanswer, hanswer', -, -, alike, -⟩ :=
      statements_stand_alone ofSchema_blog [] Query.zeros Query.taggedPosts_valid commented rfl
    obtain ⟨statement, hmem, hmem'⟩ := alike "Post" Query.taggedPosts_asksAlike
    exact ⟨statements, statements', statement, hanswer, hanswer', hmem, hmem'⟩
  · obtain ⟨statements, statements', hanswer, hanswer', -, -, -, ordered⟩ :=
      statements_stand_alone ofSchema_blog Query.zeros [.taggedPosts] Query.taggedPosts_valid
        ofUsers rfl
    exact ⟨statements, statements', hanswer, hanswer', ordered (by decide +kernel)⟩

end TreeQuery
