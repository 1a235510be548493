import TreeQuery.Proofs.Caching

/-!
# Growing schemas

A schema may be declared in another order, and gain entities and references to these. A tree that
has grown so has no new way between two of its old entities: there is one path between them in
either tree, and the old path is a path of both.

* `Schema.GrowsTo`: what a larger schema keeps of a smaller one;
* `GrowsTo.reference?_eq`, `isPath_of_growsTo`, `path_of_growsTo`: references and paths between old
  entities;
* `joinOrder_of_growsTo`, `Plan.ofQuery_of_growsTo`: the plans of old queries, clause by clause;
* `growth_is_invisible`: old queries are answered as before.
-/

namespace TreeQuery

/-- The references of an entity to entities of the schema, in their order. -/
def Schema.known (s : Schema) (entity : Entity) : List (String × Reference) :=
  entity.references.entries.filter fun (name, _) => s.contains name

/-- An entity of `s` as a larger schema declares it. References to what `s` does not have may stand
anywhere between the others. -/
structure Entity.GrowsTo (s : Schema) (entity entity' : Entity) : Prop where
  attributes : ∀ a, a ∈ entity'.attributes ↔ a ∈ entity.attributes
  identifier : entity'.identifier = entity.identifier
  cte : entity'.cte = entity.cte
  known : s.known entity' = s.known entity

/-- All entities of `s` are there in `s'`, whatever else is, and in whatever order. -/
def Schema.GrowsTo (s s' : Schema) : Prop :=
  ∀ name entity, s.entity? name = some entity →
    ∃ entity', s'.entity? name = some entity' ∧ entity.GrowsTo s entity'

instance (s : Schema) (entity entity' : Entity) : Decidable (entity.GrowsTo s entity') :=
  decidable_of_iff
    ((∀ a ∈ entity'.attributes.toList, a ∈ entity.attributes) ∧
      (∀ a ∈ entity.attributes.toList, a ∈ entity'.attributes) ∧
      entity'.identifier = entity.identifier ∧ entity'.cte = entity.cte ∧
      s.known entity' = s.known entity)
    ⟨fun ⟨hle, hge, hidentifier, hcte, hknown⟩ =>
        ⟨fun a => ⟨hle a, hge a⟩, hidentifier, hcte, hknown⟩,
      fun h => ⟨fun a => (h.attributes a).mp, fun a => (h.attributes a).mpr, h.identifier, h.cte,
        h.known⟩⟩

theorem Schema.growsTo_iff {s s' : Schema} : s.GrowsTo s' ↔
    ∀ entry ∈ s.entities.entries, ∃ entity' ∈ s'.entity? entry.1, entry.2.GrowsTo s entity' := by
  constructor
  · intro h entry hentry
    exact h entry.1 entry.2 (entity?_eq_some.mpr hentry)
  · intro h name entity he
    exact h (name, entity) (entity?_eq_some.mp he)

instance (s s' : Schema) : Decidable (s.GrowsTo s') := decidable_of_iff _ Schema.growsTo_iff.symm

/-! ## What is declared -/

section Declared

variable {s : Schema} {entity name : String}

theorem Schema.mem_known {declared : Entity} {r : Reference} (hn : name ∈ s.names) :
    (name, r) ∈ s.known declared ↔ declared.references.get? name = some r := by
  rw [known, List.mem_filter, OrderedMap.get?_eq_some_iff]
  exact and_iff_left (contains_iff.mpr hn)

theorem Query.selectionViolation?_eq_none {attributes : OrderedSet String} :
    selectionViolation? s entity attributes = none ↔
      ∃ declared, s.entity? entity = some declared ∧
        ∀ name ∈ attributes.toList, name ∈ declared.attributes := by
  unfold selectionViolation?
  cases s.entity? entity with
  | none => simp
  | some declared => simp

end Declared

namespace Schema.GrowsTo

variable {s s' : Schema} {q : Query}

theorem mem_names (h : s.GrowsTo s') {name : String} (hn : name ∈ s.names) : name ∈ s'.names := by
  obtain ⟨entity, he⟩ := Schema.mem_names.mp hn
  obtain ⟨entity', he', -⟩ := h name entity he
  exact Schema.mem_names.mpr ⟨entity', he'⟩

/-- Between old entities there are the old references. -/
theorem reference?_eq (h : s.GrowsTo s') {a b : String} (ha : a ∈ s.names) (hb : b ∈ s.names) :
    s'.reference? a b = s.reference? a b := by
  obtain ⟨entity, he⟩ := Schema.mem_names.mp ha
  obtain ⟨entity', he', same⟩ := h a entity he
  ext r
  simp only [reference?_eq_some, he, he', Option.some.injEq, exists_eq_left']
  rw [← mem_known hb, ← mem_known hb, same.known]

theorem operand_known (h : s.GrowsTo s') {operand : Operand}
    (hv : operand.violation? s = none) : operand.violation? s' = none := by
  cases operand with
  | literal value => rfl
  | column entity name =>
    obtain ⟨declared, he, hname⟩ := Operand.violation?_eq_none.mp hv
    obtain ⟨declared', he', same⟩ := h entity declared he
    exact Operand.violation?_eq_none.mpr ⟨declared', he', (same.attributes name).mpr hname⟩

theorem selection_known (h : s.GrowsTo s') {entity : String} {attributes : OrderedSet String}
    (hv : Query.selectionViolation? s entity attributes = none) :
    Query.selectionViolation? s' entity attributes = none := by
  obtain ⟨declared, he, hnames⟩ := Query.selectionViolation?_eq_none.mp hv
  obtain ⟨declared', he', same⟩ := h entity declared he
  refine Query.selectionViolation?_eq_none.mpr ⟨declared', he', fun name hname => ?_⟩
  exact (same.attributes name).mpr (hnames name hname)

theorem filter_known (h : s.GrowsTo s') {f : Filter} (hv : f.violation? s = none) :
    f.violation? s' = none := by
  rw [Filter.violation?_eq_head?, List.head?_eq_none_iff, Filter.violations,
    List.flatMap_eq_nil_iff] at hv ⊢
  intro node hnode
  obtain ⟨hshape, hoperands⟩ := List.append_eq_nil_iff.mp (hv node hnode)
  refine List.append_eq_nil_iff.mpr ⟨hshape, ?_⟩
  rw [List.filterMap_eq_nil_iff] at hoperands ⊢
  intro operand hoperand
  exact h.operand_known (hoperands operand hoperand)

/-- Nothing becomes wrong with a query. -/
theorem query_known (h : s.GrowsTo s') (hv : q.violation? s = none) : q.violation? s' = none := by
  rw [Query.violation?, Option.or_eq_none_iff, List.findSome?_eq_none_iff] at hv ⊢
  obtain ⟨hselect, hfilter⟩ := hv
  refine ⟨fun entry hentry => h.selection_known (hselect entry hentry), ?_⟩
  cases hf : q.filter with
  | none => rfl
  | some f =>
    rw [hf] at hfilter
    exact h.filter_known hfilter

end Schema.GrowsTo

/-! ## Ways between old entities -/

namespace Tree

variable {t t' : Tree} {a b left right source : String} {targets : List String}
  {segments : List Segment}

/-- The references of an accepted schema are all known. -/
theorem mem_names_of_reference? {r : Reference} (h : t.schema.reference? a b = some r) :
    a ∈ t.schema.names ∧ b ∈ t.schema.names := by
  obtain ⟨entity, he, -⟩ := Schema.reference?_eq_some.mp h
  obtain ⟨-, -, -, target, ht, -⟩ := t.formsTree.matched a b r h
  exact ⟨Schema.mem_names.mpr ⟨entity, he⟩, Schema.mem_names.mpr ⟨target, ht⟩⟩

section Growing

variable (h : t.schema.GrowsTo t'.schema)

include h

theorem reference?_of_growsTo {r : Reference} (hr : t.schema.reference? a b = some r) :
    t'.schema.reference? a b = some r := by
  obtain ⟨ha, hb⟩ := mem_names_of_reference? hr
  rw [h.reference?_eq ha hb, hr]

theorem adjacent_of_growsTo (hadj : t.adjacent a b = true) : t'.adjacent a b = true := by
  rcases reference?_of_adjacent hadj with ⟨r, hr⟩ | ⟨r, hr⟩
  · exact adjacent_of_reference? (reference?_of_growsTo h hr)
  · exact adjacent_symm (adjacent_of_reference? (reference?_of_growsTo h hr))

theorem isPath_of_growsTo {p : List String} (hp : t.IsPath a b p) : t'.IsPath a b p :=
  ⟨hp.head, hp.last, hp.nodup, hp.chain.imp fun _ _ => adjacent_of_growsTo h⟩

/-- The only path there was is the only path there is. -/
theorem path_of_growsTo (ha : a ∈ t.schema.names) (hb : b ∈ t.schema.names) :
    t'.path a b = t.path a b := by
  obtain ⟨p, hpath, hp⟩ := exists_path ha hb
  have hpath' : t'.path a b = .ok p :=
    (path_eq_ok_iff (h.mem_names ha) (h.mem_names hb)).mpr (isPath_of_growsTo h hp)
  rw [hpath, hpath']

theorem segmentsFrom_of_growsTo {joined : List String} (hs : source ∈ t.schema.names)
    (ht : ∀ x ∈ targets, x ∈ t.schema.names) :
    t'.segmentsFrom source joined targets = t.segmentsFrom source joined targets := by
  induction targets generalizing joined with
  | nil => rfl
  | cons target targets ih =>
    obtain ⟨htarget, ht⟩ := List.forall_mem_cons.mp ht
    simp only [segmentsFrom, path_of_growsTo h hs htarget, ih ht]

theorem joinOrder_of_growsTo (hs : source ∈ t.schema.names)
    (ht : ∀ x ∈ targets, x ∈ t.schema.names) :
    t'.joinOrder source targets = t.joinOrder source targets := by
  rw [joinOrder, joinOrder, if_pos (contains_iff.mpr hs),
    if_pos (contains_iff.mpr (h.mem_names hs)), segmentsFrom_of_growsTo h hs ht]

theorem joinConditions_of_growsTo (hadj : t.adjacent left right = true) :
    t'.joinConditions left right = t.joinConditions left right := by
  rcases reference?_of_adjacent hadj with ⟨r, hr⟩ | ⟨r, hr⟩
  · rw [joinConditions_forward hr, joinConditions_forward (reference?_of_growsTo h hr)]
  · rw [joinConditions_backward hr, joinConditions_backward (reference?_of_growsTo h hr)]

theorem joins_of_growsTo
    (hadj : ∀ step ∈ segments.flatMap Segment.steps, t.adjacent step.1 step.2 = true) :
    t'.joins segments = t.joins segments := by
  refine mapM_congr fun step hstep => ?_
  rw [joinStep, joinStep, joinConditions_of_growsTo h (hadj step hstep)]

theorem ctes_of_growsTo {names : List String} (hn : ∀ name ∈ names, name ∈ t.schema.names) :
    t'.ctes names = t.ctes names := by
  refine mapM_congr fun name hname => ?_
  obtain ⟨entity, he⟩ := Schema.mem_names.mp (hn name hname)
  obtain ⟨entity', he', same⟩ := h name entity he
  have he : t.entity? name = some entity := he
  have he' : t'.entity? name = some entity' := he'
  rw [he, he']
  dsimp only
  rw [same.cte]

end Growing

end Tree

/-! ## Old queries -/

/-- Of its references, an entity shows those to selected entities, all of which were there. -/
theorem selectColumns_of_growsTo {s : Schema} {entity entity' : Entity} {q : Query}
    (same : entity.GrowsTo s entity') (hq : ∀ name ∈ q.select.keys, name ∈ s.names)
    (config : Config) (name : String) (attributes : OrderedSet String) :
    selectColumns config name entity' attributes q =
      selectColumns config name entity attributes q := by
  have known {referenced : String} (hs : q.selects referenced = true) :
      s.contains referenced = true :=
    Schema.contains_iff.mpr (hq referenced (OrderedMap.contains_iff.mp hs))
  have selected_known (e : Entity) : e.references.keys.filter q.selects =
      ((s.known e).map Prod.fst).filter q.selects := by
    rw [OrderedMap.keys, Schema.known, List.filter_map, List.filter_map, List.filter_filter]
    congr 1
    refine List.filter_congr fun entry _ => ?_
    rw [Function.comp_apply, Bool.eq_iff_iff, Bool.and_eq_true]
    exact ⟨fun hs => ⟨hs, known hs⟩, And.left⟩
  rw [selectColumns, selectColumns, selected_known, selected_known, same.known]

theorem Plan.ofQuery_of_growsTo {t t' : Tree} (h : t.schema.GrowsTo t'.schema) {q : Query}
    (hv : q.violation? t.schema = none) {shared : Option SharedFilter}
    (hshared : Shares q.filter shared) (config : Config) {name : String}
    (hn : name ∈ q.select.keys) :
    ofQuery t' config name q shared = ofQuery t config name q shared := by
  have selected := Query.select_known hv
  have known := List.forall_mem_cons.mpr ⟨selected name hn, hshared.mentions_mem hv⟩
  obtain ⟨entity, he⟩ := Schema.mem_names.mp (selected name hn)
  obtain ⟨entity', he', same⟩ := h name entity he
  have he : t.entity? name = some entity := he
  have he' : t'.entity? name = some entity' := he'
  obtain ⟨attributes, hattributes⟩ := OrderedMap.mem_keys_iff.mp hn
  obtain ⟨segments, hsegments, hext⟩ := Tree.joinOrder_extends known
  have hsegments' := Tree.joinOrder_of_growsTo h (selected name hn) (hshared.mentions_mem hv)
  have hctes := Tree.ctes_of_growsTo h (hext.mem_names (selected name hn))
  have hjoins := Tree.joins_of_growsTo h hext.attaches.adjacent
  have hselect := selectColumns_of_growsTo same selected config name attributes
  simp only [ofQuery, he, he', hattributes, hsegments', hsegments, ok_bind, hctes, hjoins, hselect,
    same.identifier]

namespace Planner

variable {p p' : Planner} {q : Query}

/-- **A grown schema answers old queries as before.** It may declare its entities in another order,
have more of them, and let the old ones refer to these: the statements are the same texts with the
same literals in the same order. -/
theorem growth_is_invisible {s s' : Schema} (grows : s.GrowsTo s') {config : Config}
    (hp : ofSchema s config = .ok p) (hp' : ofSchema s' config = .ok p')
    (earlier earlier' : List Query) (hv : q.violation? s = none) :
    ∃ statements, ((p.after earlier).answer q).1 = .ok statements ∧
      ((p'.after earlier').answer q).1 = .ok statements := by
  obtain ⟨rfl, rfl, coherent⟩ := after_spec hp earlier
  obtain ⟨rfl, hconfig, coherent'⟩ := after_spec hp' earlier'
  obtain ⟨statements, hanswer, -⟩ := exists_answer coherent hv
  obtain ⟨shared, hshared, hrun⟩ := answer_eq_statements coherent hv
  obtain ⟨shared', hshared', hrun'⟩ := answer_eq_statements coherent' (grows.query_known hv)
  obtain rfl := hshared.unique hshared'
  refine ⟨statements, hanswer, ?_⟩
  rw [hrun', ← hanswer, hrun]
  refine mapM_congr fun name hn => ?_
  rw [hconfig, Plan.ofQuery_of_growsTo grows hv hshared _ hn]

end Planner

/-- The blog with teams of users and threads of posts, declared in another order. -/
def Schema.teamBlog : Schema where
  entities := .ofList
    [("Team", ⟨.ofList ["name"], ["id"], .empty, "team"⟩),
     ("User", ⟨.ofList ["age", "name"], ["tenant", "id"],
       .ofList [("Team", ⟨["teamId"], ["id"]⟩)], "user"⟩),
     ("Tag", ⟨.ofList ["label"], ["id"], .ofList [("Post", ⟨["postId"], ["id"]⟩)], "tag"⟩),
     ("Thread", ⟨.ofList ["name"], ["id"], .empty, "thread"⟩),
     ("Post", ⟨.ofList ["title"], ["id"],
       .ofList [("Thread", ⟨["threadId"], ["id"]⟩),
         ("User", ⟨["authorTenant", "authorId"], ["tenant", "id"]⟩)], "post"⟩),
     ("Comment", ⟨.ofList ["body"], ["id"], .ofList [("Post", ⟨["postId"], ["id"]⟩)], "comment"⟩)]

def Tree.teamBlog : Tree := ⟨.teamBlog, by decide +kernel⟩

theorem Planner.teamBlog_answers_alike :
    Schema.blog.GrowsTo .teamBlog ∧
    ∃ statements, (((new .blog {}).after []).answer .taggedPosts).1 = .ok statements ∧
      (((new .teamBlog {}).after Query.zeros).answer .taggedPosts).1 = .ok statements := by
  have grows : Schema.blog.GrowsTo .teamBlog := by decide +kernel
  refine ⟨grows, ?_⟩
  exact growth_is_invisible grows ofSchema_blog (ofSchema_tree .teamBlog {}) [] Query.zeros
    Query.taggedPosts_valid

end TreeQuery
