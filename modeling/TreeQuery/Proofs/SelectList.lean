import TreeQuery.Proofs.MentionOrder
import TreeQuery.Proofs.Scope

/-!
# The columns of a statement

The names of the selected columns come from three sides: from the caller who asks for attributes,
from the configuration, and from the entities that are referred to, behind a prefix. None of the
three repeats itself, but nothing keeps them apart from each other.

* `Query.AsksFor`: what is asked of an entity, and which of its references are selected with it;
* `nodup_columnNames_iff`: when the names of all columns are distinct;
* `Plan.asksFor_of_ofQuery`: a plan selects what is asked of its entity;
* `columns_as_requested`: the columns of every statement of an answer, and when two of them are
  alike.
-/

namespace TreeQuery

open Sql (Column)

/-- The attributes that are asked of an entity, in the order of the request and none twice, and the
entities that it refers to and that are selected too, in the order of its declaration. -/
structure Query.AsksFor (s : Schema) (q : Query) (name : String) (asked referenced : List String) :
    Prop where
  attributes : (q.select.get? name).map OrderedSet.toList = some asked
  /-- Whatever list of names the request was made of, the first of each counts. -/
  order : ∀ requested, q.select.get? name = some (.ofList requested) → FirstsOf requested asked
  declared : ∃ entity, s.entity? name = some entity ∧ referenced.Sublist entity.references.keys
  mem_referenced : ∀ r, r ∈ referenced ↔ (s.reference? name r).isSome ∧ q.selects r

/-! ## Distinct names -/

/-- Different entities have different reference columns, also behind an empty prefix. -/
theorem Config.referenceColumn_injective (config : Config) :
    Function.Injective config.referenceColumn :=
  fun _ _ h => (String.append_right_inj _).mp h

/-- Two columns have one name only where a requested attribute is called like one of the others, or
the identifier column is called like a reference column. -/
theorem nodup_columnNames_iff {config : Config} {asked referenced : List String}
    (hasked : asked.Nodup) (hreferenced : referenced.Nodup) :
    (asked ++ config.identifierColumn :: referenced.map config.referenceColumn).Nodup ↔
      config.identifierColumn ∉ asked ∧
        ∀ r ∈ referenced, config.referenceColumn r ∉ asked ∧
          config.referenceColumn r ≠ config.identifierColumn := by
  have hcolumns : (referenced.map config.referenceColumn).Nodup :=
    hreferenced.map config.referenceColumn_injective
  rw [List.nodup_append, List.nodup_cons]
  constructor
  · rintro ⟨-, ⟨hidentifier, -⟩, apart⟩
    refine ⟨fun h => apart _ h _ List.mem_cons_self rfl, fun r hr => ⟨fun h => ?_, fun h => ?_⟩⟩
    · exact apart _ h _ (List.mem_cons_of_mem _ (List.mem_map_of_mem hr)) rfl
    · exact hidentifier (h ▸ List.mem_map_of_mem hr)
  · rintro ⟨hidentifier, hreference⟩
    refine ⟨hasked, ⟨fun h => ?_, hcolumns⟩, ?_⟩
    · obtain ⟨r, hr, heq⟩ := List.mem_map.mp h
      exact (hreference r hr).2 heq
    · rintro name hname column hcolumn rfl
      rcases List.mem_cons.mp hcolumn with rfl | hcolumn
      · exact hidentifier hname
      · obtain ⟨r, hr, rfl⟩ := List.mem_map.mp hcolumn
        exact (hreference r hr).1 hname

/-! ## Plans -/

namespace Query.AsksFor

variable {s : Schema} {q : Query} {name : String} {asked referenced : List String}

theorem nodup_asked (h : q.AsksFor s name asked referenced) : asked.Nodup := by
  obtain ⟨attributes, -, rfl⟩ := Option.map_eq_some_iff.mp h.attributes
  exact attributes.nodup

theorem nodup_referenced (h : q.AsksFor s name asked referenced) : referenced.Nodup := by
  obtain ⟨entity, -, hsublist⟩ := h.declared
  exact entity.references.nodup.sublist hsublist

/-- The order leaves no choice. -/
theorem unique {asked' referenced' : List String} (h : q.AsksFor s name asked referenced)
    (h' : q.AsksFor s name asked' referenced') : asked = asked' ∧ referenced = referenced' := by
  obtain ⟨entity, he, hsublist⟩ := h.declared
  obtain ⟨entity', he', hsublist'⟩ := h'.declared
  obtain rfl := Option.some.inj (he.symm.trans he')
  have perm : referenced.Perm referenced' :=
    (List.perm_ext_iff_of_nodup h.nodup_referenced h'.nodup_referenced).mpr fun r =>
      (h.mem_referenced r).trans (h'.mem_referenced r).symm
  exact ⟨Option.some.inj (h.attributes.symm.trans h'.attributes),
    (entity.references.nodup.perm_iff_eq_of_sublist hsublist hsublist').mp perm⟩

/-- What is asked of an entity is read off the query and the declaration of the entity. -/
theorem of_get? {entity : Entity} {attributes : OrderedSet String}
    (he : s.entity? name = some entity) (ha : q.select.get? name = some attributes) :
    q.AsksFor s name attributes.toList (entity.references.keys.filter q.selects) where
  attributes := by rw [ha, Option.map_some]
  order requested hrequested := by
    obtain rfl := Option.some.inj (ha.symm.trans hrequested)
    exact firstsOf_ofList requested
  declared := ⟨entity, he, List.filter_sublist⟩
  mem_referenced r := by
    rw [List.mem_filter, Schema.reference?_isSome]
    constructor
    · rintro ⟨hr, hselected⟩
      exact ⟨⟨entity, he, hr⟩, hselected⟩
    · rintro ⟨⟨entity', he', hr⟩, hselected⟩
      obtain rfl := Option.some.inj (he.symm.trans he')
      exact ⟨hr, hselected⟩

end Query.AsksFor

/-- A plan selects what is asked of its entity. -/
theorem Plan.asksFor_of_ofQuery {t : Tree} {config : Config} {name : String} {q : Query}
    {shared : Option SharedFilter} {plan : Plan} (h : ofQuery t config name q shared = .ok plan) :
    ∃ asked referenced, q.AsksFor t.schema name asked referenced ∧ plan.select =
      (asked ++ config.identifierColumn :: referenced.map config.referenceColumn).map
        (Column.mk name) := by
  obtain ⟨entity, attributes, -, -, he, ha, -, -, -, hselect, -⟩ := ofQuery_cases h
  exact ⟨_, _, .of_get? he ha, hselect⟩

/-! ## Answers -/

namespace Planner

variable {p : Planner} {q : Query}

/-- **Every statement selects what is asked of its entity.** Its columns are the requested
attributes in their order, the identifier column, and a column for each entity that is referred to
and selected too, in the order of the declaration. They have distinct names unless an attribute is
called like the identifier column or a reference column, or these two are called alike. No two
reference columns ever are. -/
theorem columns_as_requested {s : Schema} {config : Config} (hp : ofSchema s config = .ok p)
    (earlier : List Query) (hv : q.violation? s = none) :
    (∀ r r', r ≠ r' → config.referenceColumn r ≠ config.referenceColumn r') ∧
    ∃ statements, ((p.after earlier).answer q).1 = .ok statements ∧
      statements.map Prod.fst = q.select.keys ∧
      ∀ entry ∈ statements, ∃ (plan : Plan) (scope asked referenced : List String),
        entry.2 = plan.statement ∧ plan.InScope p.tree q entry.1 scope ∧
        q.AsksFor s entry.1 asked referenced ∧
        plan.select = (asked ++ config.identifierColumn ::
          referenced.map fun r => config.referencePrefix ++ r).map (Column.mk entry.1) ∧
        ((plan.select.map Column.name).Nodup ↔ config.identifierColumn ∉ asked ∧
          ∀ r ∈ referenced, config.referencePrefix ++ r ∉ asked ∧
            config.referencePrefix ++ r ≠ config.identifierColumn) := by
  refine ⟨fun r r' hne h => hne (config.referenceColumn_injective h), ?_⟩
  obtain ⟨rfl, rfl, coherent⟩ := ofSchema_spec hp
  obtain ⟨htree, hconfig, coherent⟩ := after_sameService coherent earlier
  have hv' : q.violation? (p.after earlier).tree.schema = none := by rw [htree, hv]
  obtain ⟨statements, hrun, hkeys, -⟩ := exists_answer coherent hv'
  refine ⟨statements, hrun, hkeys, fun entry hentry => ?_⟩
  obtain ⟨shared, hshared, hplans⟩ := answer_cases coherent hrun
  obtain ⟨plan, hplan, hstatement⟩ := hplans entry hentry
  rw [htree, hconfig] at hplan
  have hname : entry.1 ∈ q.select.keys := hkeys ▸ List.mem_map_of_mem hentry
  obtain ⟨scope, hscope⟩ := Plan.inScope_of_ofQuery hv hshared (Query.select_known hv _ hname) hplan
  obtain ⟨asked, referenced, asks, hselect⟩ := Plan.asksFor_of_ofQuery hplan
  have hnames : plan.select.map Column.name =
      asked ++ p.config.identifierColumn :: referenced.map p.config.referenceColumn := by
    rw [hselect, List.map_map]
    exact List.map_id _
  refine ⟨plan, scope, asked, referenced, hstatement, hscope, asks, hselect, ?_⟩
  rw [hnames]
  exact nodup_columnNames_iff asks.nodup_asked asks.nodup_referenced

end Planner

/-- A configuration under which identifiers are called like the titles of posts. -/
def Config.titled : Config := ⟨"title", "", true⟩

/-- The statement about posts has two columns of one name. -/
theorem Planner.titles_as_requested :
    ∃ (statements : List (String × Statement)) (plan : Plan),
      ((new .blog .titled).answer .taggedPosts).1 = .ok statements ∧
      ("Post", plan.statement) ∈ statements ∧
      plan.select = [⟨"Post", "title"⟩, ⟨"Post", "title"⟩, ⟨"Post", "User"⟩] ∧
      ¬ (plan.select.map Column.name).Nodup := by
  obtain ⟨-, statements, hrun, hkeys, hentries⟩ :=
    columns_as_requested (ofSchema_tree .blog .titled) [] Query.taggedPosts_valid
  have hpost : "Post" ∈ statements.map Prod.fst := by
    rw [hkeys]
    decide +kernel
  obtain ⟨⟨_, statement⟩, hmem, rfl⟩ := List.mem_map.mp hpost
  obtain ⟨plan, _, asked, referenced, rfl, -, asks, hselect, hdistinct⟩ := hentries _ hmem
  have post : Schema.blog.entity? "Post" = some ⟨.ofList ["title"], ["id"],
      .ofList [("User", ⟨["authorTenant", "authorId"], ["tenant", "id"]⟩)], "post"⟩ := by
    decide +kernel
  have titles : Query.taggedPosts.select.get? "Post" = some (.ofList ["title"]) := by
    decide +kernel
  have posts : Query.taggedPosts.AsksFor .blog "Post" ["title"] ["User"] := .of_get? post titles
  obtain ⟨rfl, rfl⟩ := asks.unique posts
  exact ⟨statements, plan, hrun, hmem, hselect, fun h => (hdistinct.mp h).1 List.mem_cons_self⟩

end TreeQuery
