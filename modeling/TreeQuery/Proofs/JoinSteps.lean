import TreeQuery.Plan.OfQuery
import TreeQuery.Proofs.JoinOrder

/-!
# Joining step by step

The steps of a join order attach one entity at a time to an entity that is joined already. In a tree
no other joined entity borders on the new one, so that the one reference between the two is all that
a step has to bring along.

* `Attaches`, `Extends.attaches`: the steps of a join order, one by one;
* `PathClosed.attach`, `PathClosed.only_neighbor`: what a step keeps, and why it misses nothing;
* `joinConditions_forward`, `joinConditions_backward`: the conditions of a step, from the reference
  that they come from;
* `joinConditions_sides`: there is at least one, and each compares the two entities of the step;
* `exists_joins`: the steps of a join order all become joins.
-/

namespace TreeQuery.Tree

open Sql (Column)

/-- Steps that attach a new entity each to a joined one that it is adjacent to. -/
inductive Attaches (t : Tree) : List String → List (String × String) → Prop
  | nil (joined : List String) : Attaches t joined []
  | cons {joined left right steps} : left ∈ joined → right ∉ joined →
      t.adjacent left right = true → Attaches t (joined ++ [right]) steps →
      Attaches t joined ((left, right) :: steps)

variable {t : Tree} {source left right x y : String} {joined targets : List String}
  {segments : List Segment} {steps : List (String × String)}

theorem Attaches.adjacent (h : t.Attaches joined steps) :
    ∀ step ∈ steps, t.adjacent step.1 step.2 = true := by
  induction h with
  | nil => exact nofun
  | cons _ _ hadj _ ih => exact List.forall_mem_cons.mpr ⟨hadj, ih⟩

/-- A chain that starts at a joined entity and is new behind it attaches its entities in order. -/
theorem Attaches.chain {anchor : String} {entities : List String} (ha : anchor ∈ joined)
    (hnew : ∀ x ∈ entities, x ∉ joined) (hd : entities.Nodup)
    (hchain : (anchor :: entities).IsChain fun x y => t.adjacent x y = true)
    (hrest : t.Attaches (joined ++ entities) steps) :
    t.Attaches joined ((anchor :: entities).zip entities ++ steps) := by
  induction entities generalizing anchor joined with
  | nil => simpa using hrest
  | cons entity entities ih =>
    obtain ⟨hadj, hchain⟩ := List.isChain_cons_cons.mp hchain
    obtain ⟨hentity, hd⟩ := List.nodup_cons.mp hd
    obtain ⟨hfresh, hnew⟩ := List.forall_mem_cons.mp hnew
    refine .cons ha hfresh hadj (ih (List.mem_append_right _ (List.mem_singleton_self entity)) ?_ hd
      hchain (by simpa using hrest))
    intro x hx hmem
    rcases List.mem_append.mp hmem with hj | he
    · exact hnew x hx hj
    · exact hentity (List.mem_singleton.mp he ▸ hx)

theorem Extends.attaches (h : t.Extends source joined targets segments) :
    t.Attaches joined (segments.flatMap Segment.steps) := by
  induction h with
  | done joined => exact .nil joined
  | known _ _ ih => exact ih
  | attach before hp _ ha _ fresh _ ih =>
    have behind := List.nodup_append.mp hp.nodup
    exact .chain ha fresh (List.nodup_cons.mp behind.2.1).2 (List.isChain_append.mp hp.chain).2.1 ih

theorem steps_targets (segments : List Segment) :
    (segments.flatMap Segment.steps).map Prod.snd = segments.flatMap Segment.entities := by
  have one (g : Segment) : g.steps.map Prod.snd = g.entities :=
    List.map_snd_zip (by simp)
  simp only [List.map_flatMap, one]

/-! ## What a step keeps -/

/-- The path to an attached entity is the path to the one it is attached to, and a step further. -/
theorem PathClosed.path_attach (hc : t.PathClosed source joined) (hs : source ∈ t.schema.names)
    (hl : left ∈ joined) (hr : right ∉ joined) (hadj : t.adjacent left right = true) :
    ∃ p, t.IsPath source left p ∧ t.IsPath source right (p ++ [right]) := by
  have hleft : left ∈ t.schema.names := mem_names_of_adj (adjacent_iff.mp hadj)
  obtain ⟨p, hp⟩ := exists_isPath hs hleft
  exact ⟨p, hp, hp.snoc hadj fun hmem => hr (hc left p hl hp right hmem)⟩

theorem PathClosed.attach (hc : t.PathClosed source joined) (hs : source ∈ t.schema.names)
    (hl : left ∈ joined) (hr : right ∉ joined) (hadj : t.adjacent left right = true) :
    t.PathClosed source (joined ++ [right]) := by
  obtain ⟨p, hp, hpr⟩ := hc.path_attach hs hl hr hadj
  exact hc.append hpr (hc left p hl hp)

/-- Two joined neighbors of a new entity would be two ways to it. -/
theorem PathClosed.only_neighbor (hc : t.PathClosed source joined) (hs : source ∈ t.schema.names)
    (hl : left ∈ joined) (hr : right ∉ joined) (hadj : t.adjacent left right = true)
    (hy : y ∈ joined) (hyr : t.adjacent y right = true) : y = left := by
  obtain ⟨p, hp, hpr⟩ := hc.path_attach hs hl hr hadj
  obtain ⟨q, hq, hqr⟩ := hc.path_attach hs hy hr hyr
  obtain rfl : q = p := List.append_cancel_right (hpr.unique hqr)
  exact Option.some.inj (hq.last.symm.trans hp.last)

/-! ## The conditions of a step -/

theorem reference?_of_adjacent (h : t.adjacent left right = true) :
    (∃ r, t.schema.reference? left right = some r) ∨
      ∃ r, t.schema.reference? right left = some r := by
  obtain ⟨-, hr⟩ := Schema.graph_adj.mp (adjacent_iff.mp h)
  exact hr.imp Option.isSome_iff_exists.mp Option.isSome_iff_exists.mp

theorem adjacent_of_reference? {r : Reference} (h : t.schema.reference? x y = some r) :
    t.adjacent x y = true := by
  refine adjacent_iff.mpr (Schema.graph_adj.mpr ⟨?_, .inl (Option.isSome_of_mem h)⟩)
  exact (t.formsTree.matched x y r h).1.symm

theorem reference?_back {r : Reference} (h : t.schema.reference? x y = some r) :
    t.schema.reference? y x = none := by
  by_contra hback
  exact t.formsTree.oneSided x y ⟨Option.isSome_of_mem h, Option.isSome_iff_ne_none.mpr hback⟩

theorem joinConditions_forward {r : Reference} (h : t.schema.reference? left right = some r) :
    t.joinConditions left right =
      .ok (r.pairs.map fun (own, key) => ⟨⟨left, own⟩, ⟨right, key⟩⟩) := by
  simp [joinConditions, edge?, h]

theorem joinConditions_backward {r : Reference} (h : t.schema.reference? right left = some r) :
    t.joinConditions left right =
      .ok (r.pairs.map fun (own, key) => ⟨⟨left, key⟩, ⟨right, own⟩⟩) := by
  have hne : right ≠ left := (t.formsTree.matched right left r h).1.symm
  simp [joinConditions, edge?, h, reference?_back h, hne]

theorem pairs_ne_nil {r : Reference} (h : t.schema.reference? left right = some r) :
    r.pairs ≠ [] := by
  obtain ⟨-, hne, hlength, -⟩ := t.formsTree.matched left right r h
  rw [Reference.pairs, ne_eq, List.zip_eq_nil_iff]
  rintro (hnil | hnil)
  · exact hne hnil
  · exact hne (List.eq_nil_of_length_eq_zero (by rw [hlength, hnil]; rfl))

/-- Conditions made of pairs of columns, with the same two entities on the sides of each. -/
theorem map_sides {pairs : List (String × String)} {make : String × String → JoinCondition}
    (hne : pairs ≠ [])
    (hmake : ∀ pair, (make pair).left.entity = left ∧ (make pair).right.entity = right) :
    pairs.map make ≠ [] ∧
      ∀ c ∈ pairs.map make, c.left.entity = left ∧ c.right.entity = right := by
  refine ⟨by simpa using hne, fun c hc => ?_⟩
  obtain ⟨pair, -, rfl⟩ := List.mem_map.mp hc
  exact hmake pair

/-- A step compares its two entities, and in some column. -/
theorem joinConditions_sides {conditions : List JoinCondition} (hadj : t.adjacent left right = true)
    (h : t.joinConditions left right = .ok conditions) :
    conditions ≠ [] ∧ ∀ c ∈ conditions, c.left.entity = left ∧ c.right.entity = right := by
  rcases reference?_of_adjacent hadj with ⟨r, hr⟩ | ⟨r, hr⟩
  · rw [joinConditions_forward hr] at h
    obtain rfl := Except.ok.inj h
    exact map_sides (pairs_ne_nil hr) fun _ => ⟨rfl, rfl⟩
  · rw [joinConditions_backward hr] at h
    obtain rfl := Except.ok.inj h
    exact map_sides (pairs_ne_nil hr) fun _ => ⟨rfl, rfl⟩

/-- Joins that come of steps, one of each. -/
abbrev StepJoins (t : Tree) : List (String × String) → List Join → Prop :=
  List.Forall₂ fun step join => join.entity = step.2 ∧
    t.joinConditions step.1 step.2 = .ok join.conditions

/-- Along adjacent entities every step becomes a join of its right side. -/
theorem exists_joins (h : ∀ step ∈ segments.flatMap Segment.steps,
      t.adjacent step.1 step.2 = true) :
    ∃ joins, t.joins segments = .ok joins ∧
      t.StepJoins (segments.flatMap Segment.steps) joins := by
  refine exists_mapM_eq_ok fun step hstep => ?_
  rcases reference?_of_adjacent (h step hstep) with ⟨r, hr⟩ | ⟨r, hr⟩
  · have hconditions := joinConditions_forward hr
    exact ⟨_, by rw [joinStep, hconditions]; rfl, rfl, hconditions⟩
  · have hconditions := joinConditions_backward hr
    exact ⟨_, by rw [joinStep, hconditions]; rfl, rfl, hconditions⟩

/-- Each join brings in the entity that its step leads to. -/
theorem joins_targets {joins : List Join} (h : t.StepJoins steps joins) :
    steps.map Prod.snd = joins.map Join.entity := by
  induction h with
  | nil => rfl
  | cons hjoin _ ih => rw [List.map_cons, List.map_cons, ih, hjoin.1]

end TreeQuery.Tree
