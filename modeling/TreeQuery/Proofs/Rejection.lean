import TreeQuery.Proofs.Acceptance

/-!
# What a rejection says

A schema that is no tree is rejected with the first violation that the checks find. Whatever it is,
what it says of the schema is so.

* `ReferenceFault.HoldsOf`, `SchemaViolation.HoldsOf`: what a violation says, without the checks;
* `declarationViolation?_holds`, `conflictViolation?_holds`: the checks of single declarations and
  of pairs of them;
* `shapeViolation?_cases`: the walk from the first entity names an entity on a cycle, or lists all
  entities out of reach of a component without cycles;
* `rejections_hold`: every rejection holds, and which of the two the shape of a schema is rejected
  with.
-/

namespace TreeQuery

/-- What a fault says of a reference to an entity with a given identifier. -/
def ReferenceFault.HoldsOf (r : Reference) (identifier : List String) : ReferenceFault → Prop
  | .noColumns => r.localColumns = []
  | .unequalLengths localCount foreignCount =>
    r.localColumns.length = localCount ∧ r.foreignColumns.length = foreignCount ∧
      localCount ≠ foreignCount
  | .otherColumns foreign wanted =>
    r.foreignColumns = foreign ∧ identifier = wanted ∧ foreign ≠ wanted

/-- The entity refers to itself, or lies on a simple cycle of at least three entities. -/
def Schema.OnCycle (s : Schema) (name : String) : Prop :=
  (s.reference? name name).isSome ∨
    ∃ c : s.graph.Walk name name, c.IsCycle ∧ 3 ≤ c.length ∧ ∀ x ∈ c.support, x ∈ s.names

/-- What a violation says of a schema. Of the entities out of reach it says that they are all, in
the order of their declaration. -/
def SchemaViolation.HoldsOf (s : Schema) : SchemaViolation → Prop
  | .danglingReference name referenced =>
    (s.reference? name referenced).isSome ∧ referenced ∉ s.names
  | .conflictingReference name referenced =>
    name ≠ referenced ∧ (s.reference? name referenced).isSome ∧
      (s.reference? referenced name).isSome
  | .cyclic name => s.OnCycle name
  | .disconnected root unreachable =>
    s.names.head? = some root ∧
      (∀ x, s.graph.Reachable root x → x ∈ s.names ∧ ¬ s.OnCycle x) ∧
      unreachable ≠ [] ∧ unreachable.Sublist s.names ∧
      ∀ x, x ∈ unreachable ↔ x ∈ s.names ∧ ¬ s.graph.Reachable root x
  | .malformedReference name referenced fault =>
    ∃ r target, s.reference? name referenced = some r ∧ s.entity? referenced = some target ∧
      fault.HoldsOf r target.identifier
  | .emptyIdentifier name => ∃ entity, s.entity? name = some entity ∧ entity.identifier = []

theorem Reference.fault?_holds {r : Reference} {identifier : List String} {fault : ReferenceFault}
    (h : r.fault? identifier = some fault) : fault.HoldsOf r identifier := by
  unfold Reference.fault? at h
  split at h
  · next hnone => cases h; exact hnone
  · split at h
    · next hlength => cases h; exact ⟨rfl, rfl, hlength⟩
    · split at h
      · next hother => cases h; exact ⟨rfl, rfl, hother⟩
      · cases h

namespace Schema

variable {s : Schema} {name referenced root x : String} {v : SchemaViolation}

/-! ## Declarations -/

theorem referenceViolation?_holds {r : Reference} (hr : s.reference? name referenced = some r)
    (h : s.referenceViolation? name referenced r = some v) : v.HoldsOf s := by
  unfold referenceViolation? at h
  cases ht : s.entity? referenced with
  | none =>
    rw [ht] at h
    cases h
    refine ⟨Option.isSome_of_mem hr, fun hn => ?_⟩
    obtain ⟨target, ht'⟩ := mem_names.mp hn
    cases ht.symm.trans ht'
  | some target =>
    simp only [ht] at h
    split at h
    · next hself =>
      cases h
      exact .inl (Option.isSome_of_mem (hself ▸ hr))
    · obtain ⟨fault, hfault, rfl⟩ := Option.map_eq_some_iff.mp h
      exact ⟨r, target, hr, ht, Reference.fault?_holds hfault⟩

theorem entityViolation?_holds {entity : Entity} (he : s.entity? name = some entity)
    (h : s.entityViolation? name entity = some v) : v.HoldsOf s := by
  unfold entityViolation? at h
  split at h
  · next hempty =>
    cases h
    exact ⟨entity, he, hempty⟩
  · obtain ⟨⟨referenced, r⟩, hmem, hv⟩ := List.exists_of_findSome?_eq_some h
    have hr : s.reference? name referenced = some r :=
      reference?_eq_some.mpr ⟨entity, he, OrderedMap.get?_eq_some_iff.mpr hmem⟩
    exact referenceViolation?_holds hr hv

theorem declarationViolation?_holds (h : s.declarationViolation? = some v) : v.HoldsOf s := by
  obtain ⟨⟨name, entity⟩, hmem, hv⟩ := List.exists_of_findSome?_eq_some h
  exact entityViolation?_holds (entity?_eq_some.mpr hmem) hv

theorem conflictViolation?_holds (hd : s.WellDeclared) (h : s.conflictViolation? = some v) :
    v.HoldsOf s := by
  obtain ⟨⟨name, entity⟩, hmem, hv⟩ := List.exists_of_findSome?_eq_some h
  obtain ⟨referenced, hfound, rfl⟩ := Option.map_eq_some_iff.mp hv
  have hr : (s.reference? name referenced).isSome :=
    reference?_isSome.mpr ⟨entity, entity?_eq_some.mpr hmem, List.mem_of_find?_eq_some hfound⟩
  have hback := List.find?_some hfound
  obtain ⟨r, hr'⟩ := Option.isSome_iff_exists.mp hr
  exact ⟨(hd.matched name referenced r hr').1.symm, hr, hback⟩

/-! ## The shape -/

/-- With references between other entities only, what a cycle passes are entities. -/
theorem onCycle_iff (hd : s.WellDeclared) :
    s.OnCycle x ↔ ∃ c : s.graph.Walk x x, c.IsCycle := by
  constructor
  · rintro (hself | ⟨c, hc, -, -⟩)
    · obtain ⟨r, hr⟩ := Option.isSome_iff_exists.mp hself
      exact absurd rfl (hd.matched x x r hr).1
    · exact ⟨c, hc⟩
  · rintro ⟨c, hc⟩
    refine .inr ⟨c, hc, hc.three_le_length, fun y hy => ?_⟩
    have hx : x ∈ s.names := mem_names_of_adj hd (c.adj_snd hc.not_nil)
    exact closed_of_reachable (fun _ _ _ hyz => mem_names_of_adj hd hyz.symm)
      (c.takeUntil y hy).reachable hx

/-- What the walk from the first entity finds wrong is a cycle in its component, or else all that
lies outside of it. -/
theorem shapeViolation?_cases (hd : s.WellDeclared) (ho : s.OneSided)
    (h : s.shapeViolation? = some v) : ∃ root, s.names.head? = some root ∧
      ((∃ name, v = .cyclic name ∧ s.graph.Reachable root name ∧ s.OnCycle name) ∨
        ∃ unreachable, v = .disconnected root unreachable ∧ v.HoldsOf s) := by
  unfold shapeViolation? at h
  split at h
  · cases h
  · next root rest hroot =>
    have hhead : s.names.head? = some root := by rw [hroot, List.head?_cons]
    have hmem : root ∈ s.names := hroot ▸ List.mem_cons_self
    refine ⟨root, hhead, ?_⟩
    rcases walk_names_outcome hd ho hroot with ⟨name, hw, hreached, hcycle⟩ | ⟨_, left, hw, walked⟩
    · simp only [hw] at h
      cases h
      exact .inl ⟨name, rfl, hreached, (onCycle_iff hd).mpr hcycle⟩
    · have reached {x : String} (hx : s.graph.Reachable root x) : x ∈ s.names ∧ ¬ s.OnCycle x := by
        refine ⟨closed_of_reachable (fun _ _ _ hyz => mem_names_of_adj hd hyz.symm) hx hmem, ?_⟩
        rw [onCycle_iff hd]
        rintro ⟨c, hc⟩
        exact walked.not_isCycle hx c hc
      have unreached {x : String} : x ∈ left ↔ x ∈ s.names ∧ ¬ s.graph.Reachable root x := by
        rw [← walked.reachable_iff]
        constructor
        · intro hx
          have hn := walked.ordered.subset hx
          exact ⟨hn, (walked.remaining x hn).mp hx⟩
        · rintro ⟨hn, hx⟩
          exact (walked.remaining x hn).mpr hx
      cases left with
      | nil => simp [hw] at h
      | cons first left =>
        simp only [hw] at h
        cases h
        exact .inr ⟨_, rfl, hhead, fun x => reached, List.cons_ne_nil _ _, walked.ordered,
          fun x => unreached⟩

theorem exists_cyclic_iff (hd : s.WellDeclared) (ho : s.OneSided) :
    (∃ name, s.shapeViolation? = some (.cyclic name)) ↔
      ∃ root ∈ s.names.head?, ∃ x, s.graph.Reachable root x ∧ s.OnCycle x := by
  constructor
  · rintro ⟨name, h⟩
    obtain ⟨root, hroot, ⟨_, heq, hreached, hcycle⟩ | ⟨_, heq, -⟩⟩ := shapeViolation?_cases hd ho h
    · cases heq
      exact ⟨root, hroot, name, hreached, hcycle⟩
    · cases heq
  · rintro ⟨root, hroot, x, hreached, hcycle⟩
    obtain ⟨c, hc⟩ := (onCycle_iff hd).mp hcycle
    have rejected : s.shapeViolation? ≠ none := fun hnone =>
      ((shapeViolation?_eq_none hd ho).mp hnone).2 c hc
    obtain ⟨v, hv⟩ := Option.ne_none_iff_exists'.mp rejected
    obtain ⟨root', hroot', ⟨name, rfl, -⟩ | ⟨_, rfl, -, free, -⟩⟩ := shapeViolation?_cases hd ho hv
    · exact ⟨name, hv⟩
    · obtain rfl : root' = root := Option.some.inj (hroot'.symm.trans hroot)
      exact absurd hcycle (free x hreached).2

theorem exists_disconnected_iff (hd : s.WellDeclared) (ho : s.OneSided) :
    (∃ root unreachable, s.shapeViolation? = some (.disconnected root unreachable)) ↔
      ∃ root ∈ s.names.head?, (∀ x, s.graph.Reachable root x → ¬ s.OnCycle x) ∧
        ∃ x ∈ s.names, ¬ s.graph.Reachable root x := by
  constructor
  · rintro ⟨root, unreachable, h⟩
    obtain ⟨_, -, ⟨_, heq, -⟩ | ⟨_, -, hroot, free, hne, -, hall⟩⟩ := shapeViolation?_cases hd ho h
    · cases heq
    · obtain ⟨x, hx⟩ := List.exists_mem_of_ne_nil unreachable hne
      exact ⟨root, hroot, fun y hy => (free y hy).2, x, (hall x).mp hx⟩
  · rintro ⟨root, hroot, free, x, hx, hunreached⟩
    have rejected : s.shapeViolation? ≠ none := fun hnone =>
      hunreached (((shapeViolation?_eq_none hd ho).mp hnone).1 root (List.mem_of_head? hroot) x hx)
    obtain ⟨v, hv⟩ := Option.ne_none_iff_exists'.mp rejected
    obtain ⟨root', hroot', ⟨name, rfl, hreached, hcycle⟩ | ⟨unreachable, rfl, -⟩⟩ :=
      shapeViolation?_cases hd ho hv
    · obtain rfl : root' = root := Option.some.inj (hroot'.symm.trans hroot)
      exact absurd hcycle (free name hreached)
    · exact ⟨root', unreachable, hv⟩

/-- Behind the other checks, the walk decides. -/
theorem violation?_eq_shapeViolation? (hd : s.WellDeclared) (ho : s.OneSided) :
    s.violation? = s.shapeViolation? := by
  rw [violation?, declarationViolation?_eq_none.mpr hd, conflictViolation?_eq_none.mpr ho,
    Option.none_or, Option.none_or]

theorem violation?_holds (h : s.violation? = some v) : v.HoldsOf s := by
  cases hd : s.declarationViolation? with
  | some first =>
    rw [violation?, hd, Option.some_or] at h
    cases h
    exact declarationViolation?_holds hd
  | none =>
    have declared := declarationViolation?_eq_none.mp hd
    cases ho : s.conflictViolation? with
    | some first =>
      rw [violation?, hd, ho, Option.none_or, Option.some_or] at h
      cases h
      exact conflictViolation?_holds declared ho
    | none =>
      have oneSided := conflictViolation?_eq_none.mp ho
      rw [violation?_eq_shapeViolation? declared oneSided] at h
      obtain ⟨root, -, ⟨name, rfl, -, hcycle⟩ | ⟨unreachable, -, holds⟩⟩ :=
        shapeViolation?_cases declared oneSided h
      · exact hcycle
      · exact holds

end Schema

namespace Tree

variable {s : Schema}

theorem ofSchema_eq_error_iff {v : SchemaViolation} :
    ofSchema s = .error v ↔ s.violation? = some v := by
  unfold ofSchema
  split
  · next hnone => simp [hnone]
  · next w hw => simp [hw]

/-- **Every rejection holds.** Whatever a schema is rejected with is so, down to the columns of a
reference and the list of the entities out of reach. If nothing is wrong with the declarations, the
schema is rejected for a cycle exactly if there is one in the component of its first entity, and for
entities out of reach exactly if there is none and some entity lies outside of that component. -/
theorem rejections_hold (s : Schema) :
    (∀ v, ofSchema s = .error v → v.HoldsOf s) ∧
    (s.WellDeclared → s.OneSided →
      ((∃ name, ofSchema s = .error (.cyclic name)) ↔
        ∃ root ∈ s.names.head?, ∃ x, s.graph.Reachable root x ∧ s.OnCycle x) ∧
      ((∃ root unreachable, ofSchema s = .error (.disconnected root unreachable)) ↔
        ∃ root ∈ s.names.head?, (∀ x, s.graph.Reachable root x → ¬ s.OnCycle x) ∧
          ∃ x ∈ s.names, ¬ s.graph.Reachable root x)) := by
  refine ⟨fun v hv => Schema.violation?_holds (ofSchema_eq_error_iff.mp hv), fun hd ho => ?_⟩
  simp only [ofSchema_eq_error_iff, Schema.violation?_eq_shapeViolation? hd ho]
  exact ⟨Schema.exists_cyclic_iff hd ho, Schema.exists_disconnected_iff hd ho⟩

end Tree

/-- A site with pages, menus and links that lead from one to the other in a ring. The pages may
refer to more than the menus. -/
def Schema.menus (others : List (String × Reference)) : Schema where
  entities := .ofList
    [("Site", ⟨.empty, ["id"], .empty, "site"⟩),
     ("Page", ⟨.ofList ["title"], ["id"], .ofList (others ++ [("Menu", ⟨["menuId"], ["id"]⟩)]),
       "page"⟩),
     ("Menu", ⟨.empty, ["id"], .ofList [("Link", ⟨["firstId"], ["id"]⟩)], "menu"⟩),
     ("Link", ⟨.empty, ["id"], .ofList [("Page", ⟨["targetId"], ["id"]⟩)], "link"⟩)]

/-- The ring is found if the site is tied to it, at the page where the walk comes back; otherwise
it is out of reach. -/
theorem Tree.menus_rejections_hold :
    (ofSchema (.menus [("Site", ⟨["siteId"], ["id"]⟩)]) = .error (.cyclic "Page") ∧
      (Schema.menus [("Site", ⟨["siteId"], ["id"]⟩)]).OnCycle "Page") ∧
    (ofSchema (.menus []) = .error (.disconnected "Site" ["Page", "Menu", "Link"]) ∧
      (SchemaViolation.disconnected "Site" ["Page", "Menu", "Link"]).HoldsOf (.menus [])) ∧
    ∃ root ∈ (Schema.menus []).names.head?,
      ∀ x, (Schema.menus []).graph.Reachable root x → ¬ (Schema.menus []).OnCycle x := by
  have tied : ofSchema (.menus [("Site", ⟨["siteId"], ["id"]⟩)]) = .error (.cyclic "Page") :=
    ofSchema_eq_error_iff.mpr (by decide +kernel)
  have apart : ofSchema (.menus []) = .error (.disconnected "Site" ["Page", "Menu", "Link"]) :=
    ofSchema_eq_error_iff.mpr (by decide +kernel)
  refine ⟨⟨tied, (rejections_hold _).1 _ tied⟩, ⟨apart, (rejections_hold _).1 _ apart⟩, ?_⟩
  have declared : (Schema.menus []).WellDeclared :=
    Schema.declarationViolation?_eq_none.mp (by decide +kernel)
  have oneSided : (Schema.menus []).OneSided :=
    Schema.conflictViolation?_eq_none.mp (by decide +kernel)
  obtain ⟨root, hroot, free, -⟩ :=
    ((rejections_hold (.menus [])).2 declared oneSided).2.mp ⟨_, _, apart⟩
  exact ⟨root, hroot, free⟩

end TreeQuery
