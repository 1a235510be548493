import TreeQuery.Proofs.ReferenceGraph

/-!
# The walk that checks the shape of a schema

A walk explores a tree: every entity that it visits is new, and comes with the edge on which the
walk arrived. `Walking` says how the explored tree, the unvisited entities and the stack hang
together.

* `Walking.visit`, `Walking.exists_cycle`: what a step does at a new and at a known entity;
* `Walking.not_isCycle`: what a walk has explored to the end is free of cycles;
* `walk_outcome`: a walk ends at an entity on a cycle, or with its component explored;
* `violation?_eq_none`: the checks find nothing exactly when the declarations are right and form a
  tree.
-/

namespace TreeQuery.Schema

open SimpleGraph

/-- What is closed under adjacency and holds at one end of a walk holds at the other. -/
theorem closed_of_reachable {V : Type} {G : SimpleGraph V} {P : V → Prop} {a b : V}
    (closed : ∀ x y, P x → G.Adj x y → P y) (h : G.Reachable a b) (ha : P a) : P b := by
  rw [reachable_eq_reflTransGen] at h
  induction h with
  | refl => exact ha
  | tail _ hxy ih => exact closed _ _ ih hxy

/-- A new leaf reaches what its neighbor reaches, and nothing else is gained. -/
theorem reachable_sup_edge_iff {V : Type} {G : SimpleGraph V} {root leaf parent x : V}
    (isolated : ∀ y, ¬ G.Adj leaf y) (hp : G.Reachable root parent) (hne : parent ≠ leaf) :
    (G ⊔ edge parent leaf).Reachable root x ↔ G.Reachable root x ∨ x = leaf := by
  have added : (G ⊔ edge parent leaf).Adj parent leaf := by simp [edge_adj, hne]
  constructor
  · intro h
    refine closed_of_reachable (P := fun y => G.Reachable root y ∨ y = leaf) ?_ h (.inl .rfl)
    rintro y z hy (hyz | hyz)
    · rcases hy with hy | rfl
      · exact .inl (hy.trans hyz.reachable)
      · exact absurd hyz (isolated z)
    · obtain ⟨⟨rfl, rfl⟩ | ⟨rfl, rfl⟩, _⟩ := (edge_adj ..).mp hyz
      · exact .inr rfl
      · exact .inl hp
  · rintro (h | rfl)
    · exact h.mono le_sup_left
    · exact (hp.mono le_sup_left).trans added.reachable

variable {s : Schema} {root : String} {explored : SimpleGraph String} {unvisited : List String}
  {stack : List (String × Option String)}

/-- A walk from `root` under way. The entities it has visited are those that the explored tree
connects to `root`. Each of their other edges waits on the stack, once and in this direction. -/
structure Walking (s : Schema) (root : String) (explored : SimpleGraph String)
    (unvisited : List String) (stack : List (String × Option String)) : Prop where
  within : explored ≤ s.graph
  acyclic : explored.IsAcyclic
  hanging : ∀ a b, explored.Adj a b → explored.Reachable root a
  ordered : unvisited.Sublist s.names
  remaining : ∀ x ∈ s.names, x ∈ unvisited ↔ ¬ explored.Reachable root x
  waiting : ∀ x cameFrom, (x, cameFrom) ∈ stack →
    ∃ p, cameFrom = some p ∧ explored.Reachable root p ∧ s.graph.Adj p x ∧ ¬ explored.Adj p x
  once : stack.Nodup
  covered : ∀ p x, explored.Reachable root p → s.graph.Adj p x →
    explored.Adj p x ∨ (x, some p) ∈ stack

namespace Walking

/-- The entities to go to from `name`, as they come onto the stack. -/
def onward (s : Schema) (name : String) (cameFrom : Option String) :
    List (String × Option String) :=
  (((s.neighbors name).filter (some · ≠ cameFrom)).map (·, some name)).reverse

theorem mem_onward (hd : s.WellDeclared) {name : String} {cameFrom : Option String}
    {e : String × Option String} :
    e ∈ onward s name cameFrom ↔
      s.graph.Adj name e.1 ∧ some e.1 ≠ cameFrom ∧ e.2 = some name := by
  obtain ⟨x, p⟩ := e
  simp only [onward, List.mem_reverse, List.mem_map, List.mem_filter, mem_neighbors_iff_adj hd,
    decide_eq_true_eq, Prod.mk.injEq]
  constructor
  · rintro ⟨y, ⟨hy, hn⟩, rfl, rfl⟩; exact ⟨hy, hn, rfl⟩
  · rintro ⟨hx, hn, rfl⟩; exact ⟨x, ⟨hx, hn⟩, rfl, rfl⟩

theorem nodup_onward (ho : s.OneSided) (name : String) (cameFrom : Option String) :
    (onward s name cameFrom).Nodup :=
  List.nodup_reverse.mpr
    (((nodup_neighbors ho name).filter _).map fun _ _ h => congrArg Prod.fst h)

/-- The walk after its first visit. -/
theorem start (hd : s.WellDeclared) (ho : s.OneSided) :
    Walking s root ⊥ (s.names.erase root) (onward s root none) where
  within := bot_le
  acyclic := isAcyclic_bot
  hanging _ _ h := h.elim
  ordered := List.erase_sublist
  remaining x hx := by
    rw [nodup_names.mem_erase_iff, reachable_bot]
    exact ⟨fun h e => h.1 e.symm, fun h => ⟨fun e => h e.symm, hx⟩⟩
  waiting x cameFrom h := by
    obtain ⟨hx, _, rfl⟩ := (mem_onward hd).mp h
    exact ⟨root, rfl, .rfl, hx, id⟩
  once := nodup_onward ho root none
  covered p x hp hx := by
    obtain rfl := reachable_bot.mp hp
    exact .inr ((mem_onward hd).mpr ⟨hx, nofun, rfl⟩)

/-! ## Visiting a new entity -/

variable {x p : String}

/-- What waits on top of the stack is an edge from a visited entity that was not taken yet. -/
theorem arrival (h : Walking s root explored unvisited ((x, some p) :: stack)) :
    explored.Reachable root p ∧ s.graph.Adj p x ∧ ¬ explored.Adj p x := by
  obtain ⟨q, hq, harrival⟩ := h.waiting x (some p) List.mem_cons_self
  exact Option.some.inj hq ▸ harrival

theorem unreached (h : Walking s root explored unvisited stack) (hx : x ∈ unvisited) :
    ¬ explored.Reachable root x :=
  (h.remaining x (h.ordered.subset hx)).mp hx

theorem isolated (h : Walking s root explored unvisited stack) (hx : x ∈ unvisited) (y : String) :
    ¬ explored.Adj x y := fun hy => h.unreached hx (h.hanging x y hy)

/-- With its edge of arrival explored, the new entity is reached, and nothing else is gained. -/
theorem reachable_iff_of_new (h : Walking s root explored unvisited ((x, some p) :: stack))
    (hx : x ∈ unvisited) {y : String} :
    (explored ⊔ edge p x).Reachable root y ↔ explored.Reachable root y ∨ y = x :=
  reachable_sup_edge_iff (h.isolated hx) h.arrival.1 h.arrival.2.1.ne

theorem hanging_visit (h : Walking s root explored unvisited ((x, some p) :: stack))
    (hx : x ∈ unvisited) (a b : String) (hab : (explored ⊔ edge p x).Adj a b) :
    (explored ⊔ edge p x).Reachable root a := by
  rw [h.reachable_iff_of_new hx]
  rcases hab with hab | hab
  · exact .inl (h.hanging a b hab)
  · obtain ⟨⟨rfl, rfl⟩ | ⟨rfl, rfl⟩, _⟩ := (edge_adj ..).mp hab
    · exact .inl h.arrival.1
    · exact .inr rfl

theorem waiting_visit (hd : s.WellDeclared)
    (h : Walking s root explored unvisited ((x, some p) :: stack)) (hx : x ∈ unvisited)
    (y : String) (cameFrom : Option String) (hmem : (y, cameFrom) ∈ onward s x (some p) ++ stack) :
    ∃ q, cameFrom = some q ∧ (explored ⊔ edge p x).Reachable root q ∧ s.graph.Adj q y ∧
      ¬ (explored ⊔ edge p x).Adj q y := by
  obtain ⟨-, hpx, -⟩ := h.arrival
  rcases List.mem_append.mp hmem with hy | hy
  · -- an edge from `x` is new unless it leads back to `p`
    obtain ⟨hxy, hback, rfl⟩ := (mem_onward hd).mp hy
    refine ⟨x, rfl, (h.reachable_iff_of_new hx).mpr (.inr rfl), hxy, ?_⟩
    rintro (he | he)
    · exact h.isolated hx y he
    · obtain ⟨⟨rfl, _⟩ | ⟨_, rfl⟩, _⟩ := (edge_adj ..).mp he
      · exact hpx.ne rfl
      · exact hback rfl
  · -- an edge that waited before is not the one taken from the stack, in either direction
    obtain ⟨q, rfl, hq, hqy, hnew⟩ := h.waiting y cameFrom (List.mem_cons_of_mem _ hy)
    refine ⟨q, rfl, (h.reachable_iff_of_new hx).mpr (.inl hq), hqy, ?_⟩
    rintro (he | he)
    · exact hnew he
    · obtain ⟨⟨rfl, rfl⟩ | ⟨rfl, rfl⟩, _⟩ := (edge_adj ..).mp he
      · exact (List.nodup_cons.mp h.once).1 hy
      · exact h.unreached hx hq

theorem once_visit (hd : s.WellDeclared) (ho : s.OneSided)
    (h : Walking s root explored unvisited ((x, some p) :: stack)) (hx : x ∈ unvisited) :
    (onward s x (some p) ++ stack).Nodup := by
  refine List.nodup_append.mpr ⟨nodup_onward ho x _, (List.nodup_cons.mp h.once).2, ?_⟩
  rintro ⟨y, q⟩ hy ⟨y', q'⟩ hy' heq
  obtain ⟨rfl, rfl⟩ := Prod.mk.inj heq
  obtain ⟨_, _, hq⟩ := (mem_onward hd).mp hy
  obtain ⟨q', rfl, hq', _⟩ := h.waiting y q (List.mem_cons_of_mem _ hy')
  exact h.unreached hx (Option.some.inj hq ▸ hq')

theorem covered_visit (hd : s.WellDeclared)
    (h : Walking s root explored unvisited ((x, some p) :: stack)) (hx : x ∈ unvisited)
    (q y : String) (hq : (explored ⊔ edge p x).Reachable root q) (hqy : s.graph.Adj q y) :
    (explored ⊔ edge p x).Adj q y ∨ (y, some q) ∈ onward s x (some p) ++ stack := by
  rcases (h.reachable_iff_of_new hx).mp hq with hq | rfl
  · rcases h.covered q y hq hqy with he | he
    · exact .inl (.inl he)
    · rcases List.mem_cons.mp he with he | he
      · obtain ⟨rfl, hqp⟩ := Prod.mk.inj he
        obtain rfl := Option.some.inj hqp
        exact .inl (.inr ((edge_adj ..).mpr ⟨.inl ⟨rfl, rfl⟩, hqy.ne⟩))
      · exact .inr (List.mem_append_right _ he)
  · by_cases hyp : y = p
    · subst hyp
      exact .inl (.inr ((edge_adj ..).mpr ⟨.inr ⟨rfl, rfl⟩, hqy.ne⟩))
    · exact .inr (List.mem_append_left _
        ((mem_onward hd).mpr ⟨hqy, fun e => hyp (Option.some.inj e), rfl⟩))

/-- A new entity becomes a leaf of the explored tree. -/
theorem visit (hd : s.WellDeclared) (ho : s.OneSided)
    (h : Walking s root explored unvisited ((x, some p) :: stack)) (hx : x ∈ unvisited) :
    Walking s root (explored ⊔ edge p x) (unvisited.erase x) (onward s x (some p) ++ stack) where
  within := sup_le h.within ((edge_le_iff _).mpr (.inr h.arrival.2.1))
  acyclic := by
    have apart : ¬ explored.Reachable p x := fun hr => h.unreached hx (h.arrival.1.trans hr)
    exact (isAcyclic_add_edge_iff_of_not_reachable p x apart).mpr h.acyclic
  hanging := h.hanging_visit hx
  ordered := List.erase_sublist.trans h.ordered
  remaining y hy := by
    rw [(nodup_names.sublist h.ordered).mem_erase_iff, h.remaining y hy, h.reachable_iff_of_new hx,
      not_or, and_comm]
  waiting := h.waiting_visit hd hx
  once := h.once_visit hd ho hx
  covered := h.covered_visit hd hx

/-! ## Coming to a known entity, and to the end -/

/-- An entity that comes up again was reached before on another way, and the two ways close a
cycle. -/
theorem exists_cycle (hd : s.WellDeclared)
    (h : Walking s root explored unvisited ((x, some p) :: stack)) (hx : x ∉ unvisited) :
    s.graph.Reachable root x ∧ ∃ c : s.graph.Walk x x, c.IsCycle := by
  obtain ⟨hp, hpx, hnew⟩ := h.arrival
  have hroot : explored.Reachable root x :=
    not_not.mp (mt (h.remaining x (mem_names_of_adj hd hpx.symm)).mpr hx)
  have without : explored ≤ s.graph \ fromEdgeSet {s(p, x)} := by
    intro a b hab
    refine ⟨h.within hab, fun he => hnew ?_⟩
    obtain ⟨he, _⟩ := (fromEdgeSet_adj _).mp he
    exact (mem_edgeSet _).mp (Set.mem_singleton_iff.mp he ▸ (mem_edgeSet _).mpr hab)
  obtain ⟨u, c, hc, he⟩ := adj_and_reachable_delete_edges_iff_exists_cycle.mp
    ⟨hpx, (hp.symm.trans hroot).mono without⟩
  exact ⟨hroot.mono h.within, c.rotate x (c.snd_mem_support_of_mem_edges he), hc.rotate _⟩

/-- Without anything left on the stack, the explored tree is the component of `root`. -/
theorem reachable_iff (h : Walking s root explored unvisited []) :
    explored.Reachable root x ↔ s.graph.Reachable root x := by
  refine ⟨fun hx => hx.mono h.within, fun hx => ?_⟩
  refine closed_of_reachable (fun y z hy hyz => ?_) hx .rfl
  have he : explored.Adj y z := (h.covered y z hy hyz).resolve_right List.not_mem_nil
  exact hy.trans he.reachable

/-- Without anything left on the stack, a cycle through the component of `root` would be a cycle of
the explored tree. -/
theorem not_isCycle (h : Walking s root explored unvisited []) (hx : s.graph.Reachable root x)
    (c : s.graph.Walk x x) : ¬ c.IsCycle := by
  intro hc
  have taken : ∀ e ∈ c.edges, e ∈ explored.edgeSet := by
    intro e he
    induction e with
    | h a b =>
      have ha := hx.trans (c.takeUntil a (c.fst_mem_support_of_mem_edges he)).reachable
      have hab := h.covered a b (h.reachable_iff.mpr ha) (c.adj_of_mem_edges he)
      exact hab.resolve_right List.not_mem_nil
  exact h.acyclic (c.transfer explored taken) (hc.transfer taken)

end Walking

/-- A walk ends at an entity on a cycle, which it has reached before, or when there is nothing left
to explore. -/
theorem walk_outcome (hd : s.WellDeclared) (ho : s.OneSided)
    (h : Walking s root explored unvisited stack) :
    (∃ x, s.walk unvisited stack = .error (.cyclic x) ∧ s.graph.Reachable root x ∧
      ∃ c : s.graph.Walk x x, c.IsCycle) ∨
    ∃ explored' rest, s.walk unvisited stack = .ok rest ∧ Walking s root explored' rest [] := by
  fun_induction walk s unvisited stack generalizing explored with
  | case1 unvisited => exact .inr ⟨explored, unvisited, rfl, h⟩
  | case2 unvisited name cameFrom stack hx onward =>
    rename_i ih
    obtain ⟨p, rfl, -⟩ := h.waiting name cameFrom List.mem_cons_self
    exact ih (h.visit hd ho hx)
  | case3 unvisited name cameFrom stack hx =>
    obtain ⟨p, rfl, -⟩ := h.waiting name cameFrom List.mem_cons_self
    exact .inl ⟨name, rfl, h.exists_cycle hd hx⟩

theorem walk_names_outcome (hd : s.WellDeclared) (ho : s.OneSided) {rest : List String}
    (hroot : s.names = root :: rest) :
    (∃ x, s.walk s.names [(root, none)] = .error (.cyclic x) ∧ s.graph.Reachable root x ∧
      ∃ c : s.graph.Walk x x, c.IsCycle) ∨
    ∃ explored left, s.walk s.names [(root, none)] = .ok left ∧
      Walking s root explored left [] := by
  have hmem : root ∈ s.names := hroot ▸ List.mem_cons_self
  rw [walk, if_pos hmem]
  simpa [Walking.onward] using walk_outcome hd ho (Walking.start hd ho)

/-- The walk finds nothing exactly when the references connect all entities without a cycle. -/
theorem shapeViolation?_eq_none (hd : s.WellDeclared) (ho : s.OneSided) :
    s.shapeViolation? = none ↔
      (∀ a ∈ s.names, ∀ b ∈ s.names, s.graph.Reachable a b) ∧ s.graph.IsAcyclic := by
  unfold shapeViolation?
  split
  · next hempty =>
    have alone (a b : String) : ¬ s.graph.Adj a b := fun h =>
      List.not_mem_nil (hempty ▸ mem_names_of_adj hd h)
    have hbot : s.graph = ⊥ := by ext a b; simpa using alone a b
    simp [hempty, hbot]
  · next root rest hroot =>
    have hmem : root ∈ s.names := hroot ▸ List.mem_cons_self
    rcases walk_names_outcome hd ho hroot with ⟨x, hw, -, c, hc⟩ | ⟨explored, left, hw, h⟩
    · simp only [hw, reduceCtorEq, false_iff, not_and]
      exact fun _ hacyclic => hacyclic c hc
    · have unreached {x : String} (hx : x ∈ s.names) :
          x ∈ left ↔ ¬ s.graph.Reachable root x := by
        rw [h.remaining x hx, h.reachable_iff]
      cases left with
      | nil =>
        have connected {a : String} (ha : a ∈ s.names) : s.graph.Reachable root a :=
          not_not.mp (mt (unreached ha).mpr List.not_mem_nil)
        have all : s.graph ≤ explored := by
          intro a b hab
          have ha := h.reachable_iff.mpr (connected (mem_names_of_adj hd hab))
          exact (h.covered a b ha hab).resolve_right List.not_mem_nil
        simp only [hw, true_iff]
        exact ⟨fun a ha b hb => (connected ha).symm.trans (connected hb), h.acyclic.anti all⟩
      | cons x left =>
        have hx : x ∈ s.names := h.ordered.subset List.mem_cons_self
        simp only [hw, reduceCtorEq, false_iff, not_and]
        exact fun hconn _ => (unreached hx).mp List.mem_cons_self (hconn root hmem x hx)

/-- Nothing is wrong with a schema exactly when its declarations are right and form a tree. -/
theorem violation?_eq_none : s.violation? = none ↔ s.FormsTree := by
  simp only [violation?, Option.or_eq_none_iff, declarationViolation?_eq_none,
    conflictViolation?_eq_none]
  constructor
  · rintro ⟨hd, ho, hs⟩
    obtain ⟨connected, acyclic⟩ := (shapeViolation?_eq_none hd ho).mp hs
    exact ⟨hd, ho, connected, acyclic⟩
  · intro h
    exact ⟨h.toWellDeclared, h.oneSided,
      (shapeViolation?_eq_none h.toWellDeclared h.oneSided).mpr ⟨h.connected, h.acyclic⟩⟩

end TreeQuery.Schema
