import Mathlib.Combinatorics.SimpleGraph.Acyclic
import TreeQuery.Tree

/-!
# The reference graph of a schema

What the checks of a schema ask for, said without a walk:

* `Schema.graph`: the references without their direction, on all names;
* `declarationViolation?_eq_none`, `conflictViolation?_eq_none`: the checks of single declarations
  and of pairs of them;
* `mem_neighbors_iff_adj`, `nodup_neighbors`: the neighbors of an entity are its neighbors in the
  graph, each listed once.
-/

namespace TreeQuery

theorem Reference.fault?_eq_none {r : Reference} {identifier : List String} :
    r.fault? identifier = none ↔ r.localColumns ≠ [] ∧
      r.localColumns.length = r.foreignColumns.length ∧ r.foreignColumns = identifier := by
  unfold Reference.fault?
  split
  · next h => simp [h]
  · next h =>
    split
    · next hl => simp [hl]
    · next hl =>
      split
      · next hf => simp [hf]
      · next hf => simp [h, not_not.mp hl, not_not.mp hf]

namespace Schema

variable {s : Schema}

/-- The references between entities, without their direction. -/
def graph (s : Schema) : SimpleGraph String :=
  SimpleGraph.fromRel fun a b => (s.reference? a b).isSome

/-- Every entity has an identifier, and every reference leads to another entity of the schema and
pairs its columns with the identifier of that entity. -/
structure WellDeclared (s : Schema) : Prop where
  identified : ∀ name entity, s.entity? name = some entity → entity.identifier ≠ []
  matched : ∀ name referenced r, s.reference? name referenced = some r →
    referenced ≠ name ∧ r.localColumns ≠ [] ∧
      r.localColumns.length = r.foreignColumns.length ∧
      ∃ target, s.entity? referenced = some target ∧ r.foreignColumns = target.identifier

/-- No two entities declare references to each other. -/
def OneSided (s : Schema) : Prop :=
  ∀ a b, ¬ ((s.reference? a b).isSome ∧ (s.reference? b a).isSome)

/-- The declarations are right and the references connect all entities without a cycle. -/
structure FormsTree (s : Schema) : Prop extends WellDeclared s where
  oneSided : s.OneSided
  connected : ∀ a ∈ s.names, ∀ b ∈ s.names, s.graph.Reachable a b
  acyclic : s.graph.IsAcyclic

theorem mem_names {name : String} : name ∈ s.names ↔ ∃ entity, s.entity? name = some entity :=
  OrderedMap.mem_keys_iff

theorem contains_iff {name : String} : s.contains name = true ↔ name ∈ s.names :=
  OrderedMap.contains_iff

theorem nodup_names : s.names.Nodup := s.entities.nodup

theorem entity?_eq_some {name : String} {entity : Entity} :
    s.entity? name = some entity ↔ (name, entity) ∈ s.entities.entries :=
  OrderedMap.get?_eq_some_iff

theorem reference?_eq_some {a b : String} {r : Reference} :
    s.reference? a b = some r ↔
      ∃ entity, s.entity? a = some entity ∧ entity.references.get? b = some r := by
  simp [reference?, Option.bind_eq_some_iff]

theorem reference?_isSome {a b : String} :
    (s.reference? a b).isSome ↔
      ∃ entity, s.entity? a = some entity ∧ b ∈ entity.references.keys := by
  simp only [Option.isSome_iff_exists, reference?_eq_some, OrderedMap.mem_keys_iff]
  constructor
  · rintro ⟨r, entity, he, hr⟩; exact ⟨entity, he, r, hr⟩
  · rintro ⟨entity, he, r, hr⟩; exact ⟨r, entity, he, hr⟩

/-! ## The checks -/

theorem referenceViolation?_eq_none {name referenced : String} {r : Reference} :
    s.referenceViolation? name referenced r = none ↔
      referenced ≠ name ∧ r.localColumns ≠ [] ∧
        r.localColumns.length = r.foreignColumns.length ∧
        ∃ target, s.entity? referenced = some target ∧ r.foreignColumns = target.identifier := by
  unfold referenceViolation?
  cases hr : s.entity? referenced with
  | none => simp
  | some target =>
    by_cases hn : referenced = name
    · simp [hn]
    · simp [hn, Reference.fault?_eq_none]

theorem entityViolation?_eq_none {name : String} {entity : Entity} :
    s.entityViolation? name entity = none ↔ entity.identifier ≠ [] ∧
      ∀ referenced r, entity.references.get? referenced = some r →
        s.referenceViolation? name referenced r = none := by
  unfold entityViolation?
  split
  · next h => simp [h]
  · next h =>
    simp only [List.findSome?_eq_none_iff, Prod.forall, OrderedMap.get?_eq_some_iff]
    exact ⟨fun hr => ⟨h, hr⟩, fun hr => hr.2⟩

theorem declarationViolation?_eq_none : s.declarationViolation? = none ↔ s.WellDeclared := by
  simp only [declarationViolation?, List.findSome?_eq_none_iff, Prod.forall,
    ← entity?_eq_some, entityViolation?_eq_none, referenceViolation?_eq_none]
  constructor
  · intro h
    refine ⟨fun name entity he => (h name entity he).1, fun name referenced r hr => ?_⟩
    obtain ⟨entity, he, hr⟩ := reference?_eq_some.mp hr
    exact (h name entity he).2 referenced r hr
  · intro h name entity he
    exact ⟨h.identified name entity he, fun referenced r hr =>
      h.matched name referenced r (reference?_eq_some.mpr ⟨entity, he, hr⟩)⟩

theorem conflictViolation?_eq_none : s.conflictViolation? = none ↔ s.OneSided := by
  simp only [conflictViolation?, List.findSome?_eq_none_iff, Prod.forall, Option.map_eq_none_iff,
    List.find?_eq_none, ← entity?_eq_some]
  constructor
  · rintro h a b ⟨hab, hba⟩
    obtain ⟨entity, he, hb⟩ := reference?_isSome.mp hab
    exact h a entity he b hb hba
  · intro h a entity he b hb hba
    exact h a b ⟨reference?_isSome.mpr ⟨entity, he, hb⟩, hba⟩

/-! ## Neighbors -/

/-- What one declaration adds to the neighbors of `a`. -/
theorem mem_contribution {a b other : String} {entity : Entity} :
    b ∈ (if other = a then entity.references.keys
        else if entity.references.contains a then [other] else []) ↔
      (other = a ∧ b ∈ entity.references.keys) ∨
      (other ≠ a ∧ b = other ∧ a ∈ entity.references.keys) := by
  by_cases hn : other = a
  · simp [hn]
  · by_cases hr : a ∈ entity.references.keys
    · simp [hn, hr]
    · simp [hn, hr]

theorem mem_neighbors {a b : String} :
    b ∈ s.neighbors a ↔
      (s.reference? a b).isSome ∨ b ≠ a ∧ (s.reference? b a).isSome := by
  simp only [neighbors, List.mem_flatMap, Prod.exists, ← entity?_eq_some, reference?_isSome,
    mem_contribution]
  constructor
  · rintro ⟨name, entity, he, ⟨rfl, hb⟩ | ⟨hn, rfl, ha⟩⟩
    · exact .inl ⟨entity, he, hb⟩
    · exact .inr ⟨hn, entity, he, ha⟩
  · rintro (⟨entity, he, hb⟩ | ⟨hn, entity, he, ha⟩)
    · exact ⟨a, entity, he, .inl ⟨rfl, hb⟩⟩
    · exact ⟨b, entity, he, .inr ⟨hn, rfl, ha⟩⟩

/-- References that are answered by none in the other direction list an entity at most once: among
the references of `a`, or as an entity that refers to `a`. -/
theorem nodup_neighbors (h : s.OneSided) (a : String) : (s.neighbors a).Nodup := by
  refine List.nodup_flatMap.mpr ⟨?_, ?_⟩
  · rintro ⟨name, entity⟩ _
    dsimp only
    split
    · exact entity.references.nodup
    · split <;> simp
  · refine (List.pairwise_map.mp s.entities.nodup).imp_of_mem ?_
    rintro ⟨x, ex⟩ ⟨y, ey⟩ hx hy hxy b hbx hby
    have refers {name referenced : String} {entity : Entity}
        (he : (name, entity) ∈ s.entities.entries) (hr : referenced ∈ entity.references.keys) :
        (s.reference? name referenced).isSome :=
      reference?_isSome.mpr ⟨entity, entity?_eq_some.mpr he, hr⟩
    rcases mem_contribution.mp hbx with ⟨rfl, hb⟩ | ⟨_, rfl, ha⟩
    · rcases mem_contribution.mp hby with ⟨rfl, _⟩ | ⟨_, rfl, ha⟩
      · exact hxy rfl
      · exact h x b ⟨refers hx hb, refers hy ha⟩
    · rcases mem_contribution.mp hby with ⟨rfl, hb⟩ | ⟨_, rfl, _⟩
      · exact h b y ⟨refers hx ha, refers hy hb⟩
      · exact hxy rfl

theorem graph_adj {a b : String} :
    s.graph.Adj a b ↔ a ≠ b ∧ ((s.reference? a b).isSome ∨ (s.reference? b a).isSome) := by
  simp [graph]

theorem mem_neighbors_iff_adj (h : s.WellDeclared) {a b : String} :
    b ∈ s.neighbors a ↔ s.graph.Adj a b := by
  have apart (hr : (s.reference? a b).isSome) : b ≠ a := by
    obtain ⟨r, hr⟩ := Option.isSome_iff_exists.mp hr
    exact (h.matched a b r hr).1
  rw [mem_neighbors, graph_adj]
  constructor
  · rintro (hr | ⟨hn, hr⟩)
    · exact ⟨(apart hr).symm, .inl hr⟩
    · exact ⟨hn.symm, .inr hr⟩
  · rintro ⟨hn, hr | hr⟩
    · exact .inl hr
    · exact .inr ⟨hn.symm, hr⟩

theorem mem_names_of_adj (h : s.WellDeclared) {a b : String} (hab : s.graph.Adj a b) :
    a ∈ s.names := by
  obtain ⟨_, hr | hr⟩ := graph_adj.mp hab
  · obtain ⟨entity, he, _⟩ := reference?_isSome.mp hr
    exact mem_names.mpr ⟨entity, he⟩
  · obtain ⟨r, hr⟩ := Option.isSome_iff_exists.mp hr
    obtain ⟨target, ht, _⟩ := (h.matched b a r hr).2.2.2
    exact mem_names.mpr ⟨target, ht⟩

end Schema

end TreeQuery
