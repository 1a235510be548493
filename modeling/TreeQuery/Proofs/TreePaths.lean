import TreeQuery.Proofs.ShapeWalk

/-!
# Paths in a tree

* `Tree.IsPath`: a sequence of entities, each adjacent to the next and none twice;
* `isPath_support`, `IsPath.exists_walk`: these are the paths of the reference graph;
* `IsPath.unique`, `exists_isPath`: between two entities there is exactly one.
-/

namespace TreeQuery.Tree

open SimpleGraph

variable {t : Tree} {a b c : String} {p : List String}

/-- A sequence of entities from `a` to `b`, each adjacent to the next and none twice. -/
structure IsPath (t : Tree) (a b : String) (p : List String) : Prop where
  head : p.head? = some a
  last : p.getLast? = some b
  nodup : p.Nodup
  chain : p.IsChain fun x y => t.adjacent x y = true

theorem formsTree (t : Tree) : t.schema.FormsTree := Schema.violation?_eq_none.mp t.accepted

theorem mem_neighbors : b ∈ t.neighbors a ↔ t.schema.graph.Adj a b :=
  Schema.mem_neighbors_iff_adj t.formsTree.toWellDeclared

theorem adjacent_iff : t.adjacent a b = true ↔ t.schema.graph.Adj a b := by
  rw [adjacent, List.contains_iff_mem, mem_neighbors]

theorem adjacent_symm (h : t.adjacent a b = true) : t.adjacent b a = true :=
  adjacent_iff.mpr (adjacent_iff.mp h).symm

theorem mem_names_of_adj (h : t.schema.graph.Adj a b) : a ∈ t.schema.names :=
  Schema.mem_names_of_adj t.formsTree.toWellDeclared h

theorem contains_iff : t.contains a = true ↔ a ∈ t.schema.names := Schema.contains_iff

/-! ## Paths as walks of the graph -/

theorem isPath_support (w : t.schema.graph.Walk a b) (hw : w.IsPath) : t.IsPath a b w.support where
  head := by rw [List.head?_eq_some_head w.support_ne_nil, w.head_support]
  last := by rw [List.getLast?_eq_some_getLast w.support_ne_nil, w.getLast_support]
  nodup := hw.support_nodup
  chain := w.isChain_adj_support.imp fun _ _ => adjacent_iff.mpr

namespace IsPath

theorem ne_nil (h : t.IsPath a b p) : p ≠ [] := by
  rintro rfl
  exact absurd h.head (by simp)

theorem target_mem (h : t.IsPath a b p) : b ∈ p := List.mem_of_getLast? h.last

theorem exists_walk (h : t.IsPath a b p) :
    ∃ w : t.schema.graph.Walk a b, w.IsPath ∧ w.support = p := by
  have hchain : p.IsChain t.schema.graph.Adj := h.chain.imp fun _ _ => adjacent_iff.mp
  have ha : p.head h.ne_nil = a := (List.head_eq_iff_head?_eq_some h.ne_nil).mpr h.head
  have hb : p.getLast h.ne_nil = b := (List.getLast_eq_iff_getLast?_eq_some h.ne_nil).mpr h.last
  refine ⟨(Walk.ofSupport p h.ne_nil hchain).copy ha hb, ?_, ?_⟩
  · rw [Walk.isPath_copy, Walk.isPath_def, Walk.support_ofSupport]
    exact h.nodup
  · rw [Walk.support_copy, Walk.support_ofSupport]

/-- A graph without cycles has at most one path between two of its vertices. -/
theorem unique {q : List String} (hp : t.IsPath a b p) (hq : t.IsPath a b q) : q = p := by
  obtain ⟨w, hw, rfl⟩ := hp.exists_walk
  obtain ⟨v, hv, rfl⟩ := hq.exists_walk
  have h : (⟨v, hv⟩ : t.schema.graph.Path a b) = ⟨w, hw⟩ :=
    (t.formsTree.acyclic.subsingleton_path a b).elim _ _
  rw [Subtype.mk.inj h]

theorem single (t : Tree) (a : String) : t.IsPath a a [a] :=
  ⟨rfl, rfl, List.nodup_singleton a, List.isChain_singleton a⟩

theorem reverse (h : t.IsPath a b p) : t.IsPath b a p.reverse where
  head := by rw [List.head?_reverse, h.last]
  last := by rw [List.getLast?_reverse, h.head]
  nodup := List.nodup_reverse.mpr h.nodup
  chain := List.isChain_reverse.mpr (h.chain.imp fun _ _ => adjacent_symm)

/-- A path goes on to an adjacent entity that it has not met. -/
theorem snoc (h : t.IsPath a b p) (hbc : t.adjacent b c = true) (hc : c ∉ p) :
    t.IsPath a c (p ++ [c]) where
  head := by rw [List.head?_append, h.head, Option.some_or]
  last := List.getLast?_concat
  nodup := List.nodup_append.mpr ⟨h.nodup, List.nodup_singleton c, fun x hx y hy hxy =>
    hc (List.mem_singleton.mp hy ▸ hxy ▸ hx)⟩
  chain := by
    refine List.isChain_append.mpr ⟨h.chain, List.isChain_singleton c, ?_⟩
    intro x hx y hy
    obtain rfl : b = x := Option.some.inj (h.last.symm.trans hx)
    obtain rfl : c = y := Option.some.inj hy
    exact hbc

/-- What a path passes is reached by its leading part. -/
theorem leading {pre post : List String} (h : t.IsPath a b (pre ++ c :: post)) :
    t.IsPath a c (pre ++ [c]) := by
  have split : pre ++ c :: post = (pre ++ [c]) ++ post := by simp
  refine ⟨?_, List.getLast?_concat, ?_, ?_⟩
  · rw [← h.head]
    cases pre <;> rfl
  · exact (List.nodup_append.mp (split ▸ h.nodup)).1
  · exact (List.isChain_append.mp (split ▸ h.chain)).1

end IsPath

theorem exists_isPath (ha : a ∈ t.schema.names) (hb : b ∈ t.schema.names) :
    ∃ p, t.IsPath a b p := by
  obtain ⟨w, hw⟩ := (t.formsTree.connected a ha b hb).exists_isPath
  exact ⟨w.support, isPath_support w hw⟩

/-- A path that starts at an entity passes entities only. -/
theorem IsPath.mem_names (h : t.IsPath a b p) (ha : a ∈ t.schema.names) :
    ∀ x ∈ p, x ∈ t.schema.names := by
  obtain ⟨w, -, rfl⟩ := h.exists_walk
  intro x hx
  exact Schema.closed_of_reachable (fun _ _ _ hyz => mem_names_of_adj hyz.symm)
    (w.takeUntil x hx).reachable ha

end TreeQuery.Tree
