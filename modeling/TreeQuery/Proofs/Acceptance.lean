import TreeQuery.Proofs.TreePaths

/-!
# Which schemas are accepted

* `ofSchema_eq_ok_iff`: a tree is made of a schema as it is;
* `SameDeclarations.formsTree`: the order of the declarations plays no part;
* `accepts_exactly_trees`: what is accepted, and what an accepted schema is good for.
-/

namespace TreeQuery

namespace Schema

variable {s s' : Schema}

/-- The same entities with the same identifiers and references, each declared in any order. -/
def SameDeclarations (s s' : Schema) : Prop :=
  ∀ name, (s.entity? name).map declared = (s'.entity? name).map declared
where
  /-- What is looked up in an entity, whatever the order of its references. -/
  declared (entity : Entity) : List String × (String → Option Reference) :=
    (entity.identifier, entity.references.get?)

namespace SameDeclarations

theorem symm (h : s.SameDeclarations s') : s'.SameDeclarations s := fun name => (h name).symm

theorem entity? (h : s.SameDeclarations s') {name : String} {entity : Entity}
    (he : s.entity? name = some entity) :
    ∃ entity', s'.entity? name = some entity' ∧ entity.identifier = entity'.identifier ∧
      entity.references.get? = entity'.references.get? := by
  have hn := h name
  rw [he, Option.map_some, eq_comm, Option.map_eq_some_iff] at hn
  obtain ⟨entity', he', hsame⟩ := hn
  obtain ⟨hi, hr⟩ := Prod.mk.inj hsame
  exact ⟨entity', he', hi.symm, hr.symm⟩

theorem reference?_le (h : s.SameDeclarations s') {a b : String} {r : Reference}
    (hr : s.reference? a b = some r) : s'.reference? a b = some r := by
  obtain ⟨entity, he, hr⟩ := reference?_eq_some.mp hr
  obtain ⟨entity', he', _, same⟩ := h.entity? he
  exact reference?_eq_some.mpr ⟨entity', he', same ▸ hr⟩

theorem reference? (h : s.SameDeclarations s') (a b : String) :
    s.reference? a b = s'.reference? a b :=
  Option.ext fun _ => ⟨h.reference?_le, h.symm.reference?_le⟩

theorem graph (h : s.SameDeclarations s') : s.graph = s'.graph := by
  simp only [Schema.graph, h.reference?]

theorem mem_names (h : s.SameDeclarations s') {name : String} (hn : name ∈ s'.names) :
    name ∈ s.names := by
  obtain ⟨entity, he⟩ := Schema.mem_names.mp hn
  obtain ⟨entity', he', _⟩ := h.symm.entity? he
  exact Schema.mem_names.mpr ⟨entity', he'⟩

theorem formsTree (h : s.SameDeclarations s') (hs : s.FormsTree) : s'.FormsTree where
  identified name entity he := by
    obtain ⟨entity', he', hi, _⟩ := h.symm.entity? he
    exact hi ▸ hs.identified name entity' he'
  matched name referenced r hr := by
    obtain ⟨hne, hl, hlen, target, ht, hf⟩ :=
      hs.matched name referenced r ((h.reference? name referenced).trans hr)
    obtain ⟨target', ht', hi, _⟩ := h.entity? ht
    exact ⟨hne, hl, hlen, target', ht', hf.trans hi⟩
  oneSided a b := by
    rw [← h.reference?, ← h.reference?]
    exact hs.oneSided a b
  connected a ha b hb := h.graph ▸ hs.connected a (h.mem_names ha) b (h.mem_names hb)
  acyclic := h.graph ▸ hs.acyclic

end SameDeclarations

end Schema

namespace Tree

variable {s : Schema}

theorem ofSchema_eq_ok_iff {t : Tree} : ofSchema s = .ok t ↔ t.schema = s := by
  obtain ⟨s', hs'⟩ := t
  unfold ofSchema
  split
  · simp [eq_comm]
  · next v hv =>
    simp only [reduceCtorEq, false_iff]
    rintro rfl
    rw [hs'] at hv
    cases hv

/-- Two trees with one schema are the same. -/
theorem schema_injective {t t' : Tree} (h : t.schema = t'.schema) : t = t' := by
  have accepted : ofSchema t.schema = .ok t := ofSchema_eq_ok_iff.mpr rfl
  exact Except.ok.inj (accepted.symm.trans (ofSchema_eq_ok_iff.mpr h.symm))

theorem exists_ofSchema_iff : (∃ t, ofSchema s = .ok t) ↔ s.FormsTree := by
  constructor
  · rintro ⟨t, ht⟩
    exact ofSchema_eq_ok_iff.mp ht ▸ t.formsTree
  · intro h
    exact ⟨⟨s, Schema.violation?_eq_none.mpr h⟩, ofSchema_eq_ok_iff.mpr rfl⟩

/-- **A schema is accepted exactly when it is a tree.** The tree keeps the schema as it is, its
adjacency is the edge relation of the references, and two entities have one path between them. The
order of the declarations plays no part. -/
theorem accepts_exactly_trees (s : Schema) :
    ((∃ t, ofSchema s = .ok t) ↔ s.FormsTree) ∧
    (∀ t, ofSchema s = .ok t →
      t.schema = s ∧
      (∀ a b, t.adjacent a b = true ↔ s.graph.Adj a b) ∧
      (∀ a, (t.neighbors a).Nodup ∧ ∀ b, b ∈ t.neighbors a ↔ s.graph.Adj a b) ∧
      ∀ a ∈ s.names, ∀ b ∈ s.names, ∃! p, t.IsPath a b p) ∧
    ∀ s' : Schema, s.SameDeclarations s' →
      ((∃ t, ofSchema s = .ok t) ↔ ∃ t, ofSchema s' = .ok t) := by
  refine ⟨exists_ofSchema_iff, ?_, ?_⟩
  · intro t ht
    obtain rfl := ofSchema_eq_ok_iff.mp ht
    refine ⟨rfl, fun _ _ => adjacent_iff, fun a => ⟨?_, fun _ => mem_neighbors⟩, ?_⟩
    · exact Schema.nodup_neighbors t.formsTree.oneSided a
    · intro a ha b hb
      obtain ⟨p, hp⟩ := exists_isPath ha hb
      exact ⟨p, hp, fun q hq => hp.unique hq⟩
  · intro s' same
    rw [exists_ofSchema_iff, exists_ofSchema_iff]
    exact ⟨same.formsTree, same.symm.formsTree⟩

end Tree

/-- Posts by authors with a key of two columns, and comments and tags on the posts. -/
def Schema.blog : Schema where
  entities := .ofList
    [("Comment", ⟨.ofList ["body"], ["id"], .ofList [("Post", ⟨["postId"], ["id"]⟩)], "comment"⟩),
     ("Post", ⟨.ofList ["title"], ["id"],
       .ofList [("User", ⟨["authorTenant", "authorId"], ["tenant", "id"]⟩)], "post"⟩),
     ("User", ⟨.ofList ["name", "age"], ["tenant", "id"], .empty, "user"⟩),
     ("Tag", ⟨.ofList ["label"], ["id"], .ofList [("Post", ⟨["postId"], ["id"]⟩)], "tag"⟩)]

def Tree.blog : Tree := ⟨.blog, by decide +kernel⟩

theorem Tree.blog_accepted :
    ofSchema .blog = .ok .blog ∧ ∃! p, Tree.blog.IsPath "Tag" "User" p := by
  have accepted : ofSchema .blog = .ok .blog := ofSchema_eq_ok_iff.mpr rfl
  have paths := ((accepts_exactly_trees .blog).2.1 .blog accepted).2.2.2
  exact ⟨accepted, paths "Tag" (by decide +kernel) "User" (by decide +kernel)⟩

end TreeQuery
