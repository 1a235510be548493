import Mathlib.Data.List.TakeWhile
import TreeQuery.Proofs.Outcome
import TreeQuery.Proofs.PathSearch

/-!
# Join orders

A join order grows a set of joined entities that is closed under the paths from its source, so that
the part of a path behind its last joined entity is new as a whole.

* `Extends`: what the segments of a join order are, target by target;
* `segmentsFrom_extends`, `segmentsFrom_eq_error`: a join order comes about unless an end is
  missing;
* `PathClosed.preconnected`, `subset_of_preconnected`: what is joined is connected, and part of
  every connected set over source and targets;
* `joinOrder_joins_least_subtree`: what a join order joins, and when there is none.
-/

namespace TreeQuery.Tree

open SimpleGraph

/-- Whatever the paths from the source to joined entities pass is joined. -/
def PathClosed (t : Tree) (source : String) (joined : List String) : Prop :=
  ∀ x p, x ∈ joined → t.IsPath source x p → ∀ y ∈ p, y ∈ joined

/-- Segments that bring the targets to the entities joined so far, in the order of the targets. A
target that is joined brings none. Any other brings the new end of its path, which leads from a
joined entity to the target. -/
inductive Extends (t : Tree) (source : String) :
    List String → List String → List Segment → Prop
  | done (joined : List String) : Extends t source joined [] []
  | known {joined target targets segments} : target ∈ joined →
      Extends t source joined targets segments →
      Extends t source joined (target :: targets) segments
  | attach {joined target targets segment segments} (before : List String) :
      t.IsPath source target (before ++ segment.anchor :: segment.entities) →
      (∀ x ∈ before, x ∈ joined) → segment.anchor ∈ joined →
      segment.entities ≠ [] → (∀ x ∈ segment.entities, x ∉ joined) →
      Extends t source (joined ++ segment.entities) targets segments →
      Extends t source joined (target :: targets) (segment :: segments)

/-! ## One target -/

variable {t : Tree} {source target : String} {joined targets p : List String}
  {segments : List Segment}

theorem newSegment?_eq_none (h : ∀ x ∈ p, x ∈ joined) : newSegment? joined p = none := by
  have known : p.takeWhile (joined.contains ·) = p :=
    List.takeWhile_eq_self_iff.mpr fun x hx => List.contains_iff_mem.mpr (h x hx)
  simp only [newSegment?, known, List.drop_length]
  split
  · next h => cases h
  · rfl

theorem newSegment?_eq_some {before entities : List String} {anchor entity : String}
    (hb : ∀ x ∈ before, x ∈ joined) (ha : anchor ∈ joined) (he : entity ∉ joined) :
    newSegment? joined (before ++ anchor :: entity :: entities) =
      some ⟨anchor, entity :: entities⟩ := by
  have split : before ++ anchor :: entity :: entities =
      (before ++ [anchor]) ++ entity :: entities := by simp
  have known : (before ++ anchor :: entity :: entities).takeWhile (joined.contains ·) =
      before ++ [anchor] := by
    rw [split, List.takeWhile_append_of_pos, List.takeWhile_cons_of_neg, List.append_nil]
    · simpa using he
    · intro x hx
      rcases List.mem_append.mp hx with hx | hx
      · exact List.contains_iff_mem.mpr (hb x hx)
      · exact List.contains_iff_mem.mpr (List.mem_singleton.mp hx ▸ ha)
  simp only [newSegment?, known, List.getLast?_concat]
  rw [split, List.drop_left]

/-- A path from a joined source is joined as a whole, or up to some entity of it. -/
theorem joined_or_split (hs : source ∈ joined) (h : p.head? = some source) :
    (∀ x ∈ p, x ∈ joined) ∨ ∃ before anchor entity entities,
      p = before ++ anchor :: entity :: entities ∧
        (∀ x ∈ before, x ∈ joined) ∧ anchor ∈ joined ∧ entity ∉ joined := by
  induction p generalizing source with
  | nil => cases h
  | cons x rest ih =>
    obtain rfl : x = source := Option.some.inj h
    cases rest with
    | nil => exact .inl fun y hy => List.mem_singleton.mp hy ▸ hs
    | cons y rest =>
      by_cases hy : y ∈ joined
      · rcases ih hy rfl with all | ⟨before, anchor, entity, entities, hp, hb, ha, he⟩
        · exact .inl (List.forall_mem_cons.mpr ⟨hs, all⟩)
        · exact .inr ⟨x :: before, anchor, entity, entities, by rw [hp]; rfl,
            List.forall_mem_cons.mpr ⟨hs, hb⟩, ha, he⟩
      · exact .inr ⟨[], x, y, rest, rfl, by simp, hs, hy⟩

/-- Behind an entity that is not joined, a path joins nothing: what is joined there would have
brought the entity along. -/
theorem PathClosed.fresh (hc : t.PathClosed source joined) {before entities : List String}
    {entity : String} (h : t.IsPath source target (before ++ entity :: entities))
    (he : entity ∉ joined) : ∀ x ∈ entity :: entities, x ∉ joined := by
  intro x hx hj
  obtain ⟨front, back, hsplit⟩ := List.mem_iff_append.mp hx
  have hp : before ++ entity :: entities = (before ++ front) ++ x :: back := by
    rw [hsplit, List.append_assoc]
  have hmem : entity ∈ before ++ front ++ [x] := by
    cases front with
    | nil => exact List.mem_append_right _ (List.mem_singleton.mpr (List.cons.inj hsplit).1)
    | cons y front =>
      obtain rfl : entity = y := (List.cons.inj hsplit).1
      exact List.mem_append_left _ (List.mem_append_right _ List.mem_cons_self)
  exact he (hc x _ hj (hp ▸ h).leading entity hmem)

theorem PathClosed.start : t.PathClosed source [source] := by
  intro x p hx hp y hy
  obtain rfl := List.mem_singleton.mp hx
  rw [(IsPath.single t x).unique hp] at hy
  exact hy

/-- A whole path can be added. -/
theorem PathClosed.append (hc : t.PathClosed source joined) {before entities : List String}
    (h : t.IsPath source target (before ++ entities)) (hb : ∀ x ∈ before, x ∈ joined) :
    t.PathClosed source (joined ++ entities) := by
  intro x q hx hq y hy
  rcases List.mem_append.mp hx with hx | hx
  · exact List.mem_append_left _ (hc x q hx hq y hy)
  · obtain ⟨front, back, rfl⟩ := List.mem_iff_append.mp hx
    rw [← List.append_assoc] at h
    rw [h.leading.unique hq, List.append_assoc] at hy
    rcases List.mem_append.mp hy with hy | hy
    · exact List.mem_append_left _ (hb y hy)
    · refine List.mem_append_right _ ?_
      rw [List.append_cons]
      exact List.mem_append_left _ hy

/-! ## All targets -/

theorem segmentsFrom_extends (hs : source ∈ t.schema.names) (hsj : source ∈ joined)
    (hc : t.PathClosed source joined) (ht : ∀ x ∈ targets, x ∈ t.schema.names) :
    ∃ segments, t.segmentsFrom source joined targets = .ok segments ∧
      t.Extends source joined targets segments := by
  induction targets generalizing joined with
  | nil => exact ⟨[], rfl, .done joined⟩
  | cons target targets ih =>
    obtain ⟨htarget, ht⟩ := List.forall_mem_cons.mp ht
    obtain ⟨p, hp, h⟩ := exists_path hs htarget
    rcases joined_or_split hsj h.head with all | ⟨before, anchor, entity, entities, rfl, hb, ha, he⟩
    · obtain ⟨segments, hrun, hext⟩ := ih hsj hc ht
      refine ⟨segments, ?_, .known (all target h.target_mem) hext⟩
      simp only [segmentsFrom, hp, ok_bind, newSegment?_eq_none all, hrun]
    · have hp' : before ++ anchor :: entity :: entities =
          (before ++ [anchor]) ++ entity :: entities := by simp
      have fresh := hc.fresh (hp' ▸ h) he
      have hba : ∀ x ∈ before ++ [anchor], x ∈ joined := by
        simpa [or_imp, forall_and] using And.intro hb ha
      obtain ⟨segments, hrun, hext⟩ :=
        ih (List.mem_append_left _ hsj) (hc.append (hp' ▸ h) hba) ht
      refine ⟨⟨anchor, entity :: entities⟩ :: segments, ?_,
        .attach before h hb ha (List.cons_ne_nil _ _) fresh hext⟩
      simp only [segmentsFrom, hp, ok_bind, newSegment?_eq_some hb ha he, hrun]
      rfl

theorem segmentsFrom_eq_error (hs : source ∈ t.schema.names) {missing : String}
    (h : targets.find? (!t.contains ·) = some missing) :
    t.segmentsFrom source joined targets = .error (.query (.unknownEntity missing)) := by
  induction targets generalizing joined with
  | nil => cases h
  | cons target targets ih =>
    cases htarget : t.contains target with
    | false =>
      obtain rfl : target = missing := by simpa [htarget] using h
      have hpath : t.path source target = .error (.query (.unknownEntity target)) :=
        path_eq_error_iff.mpr (.inr ⟨contains_iff.mpr hs, htarget, rfl⟩)
      simp only [segmentsFrom, hpath, error_bind]
    | true =>
      have hrest : targets.find? (!t.contains ·) = some missing := by simpa [htarget] using h
      obtain ⟨p, hp, _⟩ := exists_path hs (contains_iff.mp htarget)
      simp only [segmentsFrom, hp, ok_bind]
      split
      · exact ih hrest
      · rw [ih hrest]; rfl

theorem joinOrder_extends (h : ∀ x ∈ source :: targets, x ∈ t.schema.names) :
    ∃ segments, t.joinOrder source targets = .ok segments ∧
      t.Extends source [source] targets segments := by
  obtain ⟨hs, ht⟩ := List.forall_mem_cons.mp h
  rw [joinOrder, if_pos (contains_iff.mpr hs)]
  exact segmentsFrom_extends hs (List.mem_singleton_self source) PathClosed.start ht

theorem joinOrder_eq_error_iff {e : PlanError} :
    t.joinOrder source targets = .error e ↔ ∃ missing,
      (source :: targets).find? (!t.contains ·) = some missing ∧
        e = .query (.unknownEntity missing) := by
  cases hfind : (source :: targets).find? (!t.contains ·) with
  | none =>
    have known : ∀ x ∈ source :: targets, x ∈ t.schema.names := fun x hx =>
      contains_iff.mp (by simpa using List.find?_eq_none.mp hfind x hx)
    obtain ⟨segments, hrun, _⟩ := joinOrder_extends known
    simp [hrun]
  | some missing =>
    have hrun : t.joinOrder source targets = .error (.query (.unknownEntity missing)) := by
      cases hs : t.contains source with
      | false =>
        obtain rfl : source = missing := by simpa [hs] using hfind
        rw [joinOrder, if_neg (by simp [hs])]
      | true =>
        rw [joinOrder, if_pos hs]
        exact segmentsFrom_eq_error (contains_iff.mp hs) (by simpa [hs] using hfind)
    simp [hrun, @eq_comm _ e]

/-! ## What the segments join -/

namespace Extends

theorem nodup (h : t.Extends source joined targets segments) (hj : joined.Nodup) :
    (joined ++ segments.flatMap Segment.entities).Nodup := by
  induction h with
  | done joined => simpa using hj
  | known _ _ ih => exact ih hj
  | attach before hp _ _ _ fresh _ ih =>
    have hentities := (List.nodup_cons.mp (List.nodup_append.mp hp.nodup).2.1).2
    rw [List.flatMap_cons, ← List.append_assoc]
    refine ih (List.nodup_append.mpr ⟨hj, hentities, ?_⟩)
    rintro x hx y hy rfl
    exact fresh x hy hx

theorem pathClosed (h : t.Extends source joined targets segments)
    (hc : t.PathClosed source joined) :
    t.PathClosed source (joined ++ segments.flatMap Segment.entities) := by
  induction h with
  | done joined => simpa using hc
  | known _ _ ih => exact ih hc
  | @attach _ target _ segment _ before hp hb ha _ _ _ ih =>
    have hp : t.IsPath source target ((before ++ [segment.anchor]) ++ segment.entities) := by
      simpa using hp
    rw [List.flatMap_cons, ← List.append_assoc]
    exact ih (hc.append hp (by simpa [or_imp, forall_and] using And.intro hb ha))

theorem target_mem (h : t.Extends source joined targets segments) :
    ∀ x ∈ targets, x ∈ joined ++ segments.flatMap Segment.entities := by
  induction h with
  | done => simp
  | known hj _ ih => exact List.forall_mem_cons.mpr ⟨List.mem_append_left _ hj, ih⟩
  | @attach joined target _ segment _ before hp hb ha _ _ _ ih =>
    rw [List.flatMap_cons, ← List.append_assoc]
    refine List.forall_mem_cons.mpr ⟨List.mem_append_left _ ?_, ih⟩
    rcases List.mem_append.mp hp.target_mem with hx | hx
    · exact List.mem_append_left _ (hb target hx)
    · rcases List.mem_cons.mp hx with rfl | hx
      · exact List.mem_append_left _ ha
      · exact List.mem_append_right _ hx

/-- Nothing is joined but what lies on the way to a target. -/
theorem mem_path (h : t.Extends source joined targets segments) {x : String}
    (hx : x ∈ joined ++ segments.flatMap Segment.entities) :
    x ∈ joined ∨ ∃ target ∈ targets, ∃ p, t.IsPath source target p ∧ x ∈ p := by
  induction h with
  | done joined => exact .inl (by simpa using hx)
  | known _ _ ih =>
    rcases ih hx with hx | ⟨target, ht, hp⟩
    · exact .inl hx
    · exact .inr ⟨target, List.mem_cons_of_mem _ ht, hp⟩
  | @attach _ target _ _ _ before hp _ _ _ _ _ ih =>
    rw [List.flatMap_cons, ← List.append_assoc] at hx
    rcases ih hx with hx | ⟨target, ht, hp⟩
    · rcases List.mem_append.mp hx with hx | hx
      · exact .inl hx
      · exact .inr ⟨target, List.mem_cons_self, _, hp,
          List.mem_append_right _ (List.mem_cons_of_mem _ hx)⟩
    · exact .inr ⟨target, List.mem_cons_of_mem _ ht, hp⟩

/-- A segment leads from what was joined before it along adjacent entities. -/
theorem segment (h : t.Extends source joined targets segments) {front back : List Segment}
    {g : Segment} (hg : segments = front ++ g :: back) :
    g.anchor ∈ joined ++ front.flatMap Segment.entities ∧ g.entities ≠ [] ∧
      (g.anchor :: g.entities).IsChain fun x y => t.adjacent x y = true := by
  induction h generalizing front with
  | done => cases front <;> cases hg
  | known _ _ ih => exact ih hg
  | attach before hp _ ha hne _ _ ih =>
    cases front with
    | nil =>
      obtain ⟨rfl, rfl⟩ := List.cons.inj hg
      exact ⟨List.mem_append_left _ ha, hne, (List.isChain_append.mp hp.chain).2.1⟩
    | cons first front =>
      obtain ⟨rfl, hrest⟩ := List.cons.inj hg
      rw [List.flatMap_cons, ← List.append_assoc]
      exact ih hrest

/-- The segments end, one after another, in targets. -/
theorem ends (h : t.Extends source joined targets segments) :
    ∃ ends, ends.Sublist targets ∧
      List.Forall₂ (fun g target => g.entities.getLast? = some target) segments ends := by
  induction h with
  | done => exact ⟨[], .slnil, .nil⟩
  | known _ _ ih =>
    obtain ⟨ends, hsub, hends⟩ := ih
    exact ⟨ends, hsub.cons _, hends⟩
  | @attach _ target _ segment _ before hp _ _ hne _ _ ih =>
    obtain ⟨ends, hsub, hends⟩ := ih
    refine ⟨target :: ends, hsub.cons_cons target, .cons ?_ hends⟩
    have hlast := hp.last
    rwa [List.getLast?_append_of_ne_nil _ (List.cons_ne_nil _ _), List.getLast?_cons_of_ne_nil hne]
      at hlast

end Extends

/-! ## Connected sets -/

/-- A connected set holds the paths between its members. -/
theorem subset_of_preconnected {X : Set String} (hX : (t.schema.graph.induce X).Preconnected)
    {a b : String} (ha : a ∈ X) (hb : b ∈ X) (hp : t.IsPath a b p) : ∀ x ∈ p, x ∈ X := by
  obtain ⟨w, hw⟩ := (hX ⟨a, ha⟩ ⟨b, hb⟩).exists_isPath
  have inside : t.IsPath a b (w.map (Embedding.induce X).toHom).support :=
    isPath_support _ (hw.map Subtype.val_injective)
  rw [inside.unique hp, Walk.support_map]
  intro x hx
  obtain ⟨y, _, rfl⟩ := List.mem_map.mp hx
  exact y.property

theorem PathClosed.preconnected (hc : t.PathClosed source joined)
    (hj : ∀ x ∈ joined, x ∈ t.schema.names) (hs : source ∈ joined) :
    (t.schema.graph.induce {x | x ∈ joined}).Preconnected := by
  have reach (x : {x | x ∈ joined}) :
      (t.schema.graph.induce {x | x ∈ joined}).Reachable ⟨source, hs⟩ x := by
    obtain ⟨p, hp⟩ := exists_isPath (hj source hs) (hj x x.property)
    obtain ⟨w, -, rfl⟩ := hp.exists_walk
    exact (w.induce _ (hc x _ x.property hp)).reachable
  exact fun x y => (reach x).symm.trans (reach y)

/-- What the segments of a join order from the source to the targets bring about. -/
structure Covers (t : Tree) (source : String) (targets : List String) (segments : List Segment) :
    Prop where
  starts : (covered source segments).head? = some source
  nodup : (covered source segments).Nodup
  /-- The joined entities are the source and the paths from it to the targets. -/
  mem_iff : ∀ x, x ∈ covered source segments ↔
    x = source ∨ ∃ target ∈ targets, ∃ p, t.path source target = .ok p ∧ x ∈ p
  /-- They are a connected set over the source and the targets, and the least. -/
  connected : (t.schema.graph.induce {x | x ∈ covered source segments}).Preconnected
  targets_mem : ∀ target ∈ targets, target ∈ covered source segments
  least : ∀ X : Set String, (t.schema.graph.induce X).Preconnected → source ∈ X →
    (∀ target ∈ targets, target ∈ X) → ∀ x ∈ covered source segments, x ∈ X
  /-- A segment goes out from an entity joined before it, along adjacent entities. -/
  anchored : ∀ front g back, segments = front ++ g :: back →
    g.anchor ∈ covered source front ∧ g.entities ≠ [] ∧
      ∀ step ∈ g.steps, t.adjacent step.1 step.2 = true
  /-- Each segment is brought by a target, and ends in it. -/
  grown : t.Extends source [source] targets segments
  ends : ∃ ends, ends.Sublist targets ∧
    List.Forall₂ (fun g target => g.entities.getLast? = some target) segments ends

theorem adjacent_of_mem_steps {g : Segment}
    (h : (g.anchor :: g.entities).IsChain fun x y => t.adjacent x y = true) :
    ∀ step ∈ g.steps, t.adjacent step.1 step.2 = true := by
  obtain ⟨anchor, entities⟩ := g
  induction entities generalizing anchor with
  | nil => simp [Segment.steps]
  | cons x entities ih =>
    obtain ⟨hx, hrest⟩ := List.isChain_cons_cons.mp h
    exact List.forall_mem_cons.mpr ⟨hx, ih x hrest⟩

/-- A join order from an entity of the schema joins entities of the schema only. -/
theorem Extends.mem_names (h : t.Extends source [source] targets segments)
    (hs : source ∈ t.schema.names) : ∀ x ∈ covered source segments, x ∈ t.schema.names := by
  intro x hx
  rcases h.mem_path hx with hx | ⟨target, _, p, hp, hxp⟩
  · exact List.mem_singleton.mp hx ▸ hs
  · exact hp.mem_names hs x hxp

theorem Extends.covers (hknown : ∀ x ∈ source :: targets, x ∈ t.schema.names)
    (h : t.Extends source [source] targets segments) : t.Covers source targets segments := by
  obtain ⟨hs, ht⟩ := List.forall_mem_cons.mp hknown
  have closed : t.PathClosed source (covered source segments) := h.pathClosed PathClosed.start
  have joins : ∀ target ∈ targets, target ∈ covered source segments := h.target_mem
  have hmem : source ∈ covered source segments := List.mem_cons_self
  have on_path {x : String} (hx : x ∈ covered source segments) :
      x = source ∨ ∃ target ∈ targets, ∃ p, t.IsPath source target p ∧ x ∈ p :=
    (h.mem_path hx).imp_left List.mem_singleton.mp
  refine ⟨rfl, h.nodup (List.nodup_singleton source), ?_,
    closed.preconnected (h.mem_names hs) hmem, joins, ?_, ?_, h, h.ends⟩
  · intro x
    constructor
    · intro hx
      rcases on_path hx with hx | ⟨target, htarget, p, hp, hxp⟩
      · exact .inl hx
      · exact .inr ⟨target, htarget, p, (path_eq_ok_iff hs (ht target htarget)).mpr hp, hxp⟩
    · rintro (rfl | ⟨target, htarget, p, hp, hxp⟩)
      · exact hmem
      · exact closed target p (joins target htarget)
          ((path_eq_ok_iff hs (ht target htarget)).mp hp) x hxp
  · intro X hX hsX htX x hx
    rcases on_path hx with rfl | ⟨target, htarget, p, hp, hxp⟩
    · exact hsX
    · exact subset_of_preconnected hX hsX (htX target htarget) hp x hxp
  · intro front g back hg
    obtain ⟨ha, hne, hchain⟩ := h.segment hg
    exact ⟨ha, hne, adjacent_of_mem_steps hchain⟩

/-- **A join order joins the smallest connected set over its source and targets**, each entity once.
It fails for the first of them that is no entity, and for nothing else. Which entities are joined
does not depend on the order of the targets or on their repetition. -/
theorem joinOrder_joins_least_subtree (t : Tree) (source : String) (targets : List String) :
    (∀ e, t.joinOrder source targets = .error e ↔ ∃ missing,
      (source :: targets).find? (!t.contains ·) = some missing ∧
        e = .query (.unknownEntity missing)) ∧
    ((∀ x ∈ source :: targets, t.contains x = true) →
      ∃ segments, t.joinOrder source targets = .ok segments ∧ t.Covers source targets segments ∧
        ∀ targets', (∀ x, x ∈ targets' ↔ x ∈ targets) →
          ∃ segments', t.joinOrder source targets' = .ok segments' ∧
            ∀ x, x ∈ covered source segments' ↔ x ∈ covered source segments) := by
  refine ⟨fun e => joinOrder_eq_error_iff, fun h => ?_⟩
  have known : ∀ x ∈ source :: targets, x ∈ t.schema.names := fun x hx => contains_iff.mp (h x hx)
  obtain ⟨segments, hrun, hext⟩ := joinOrder_extends known
  refine ⟨segments, hrun, hext.covers known, fun targets' same => ?_⟩
  have known' : ∀ x ∈ source :: targets', x ∈ t.schema.names := by
    simpa only [List.mem_cons, same] using known
  obtain ⟨segments', hrun', hext'⟩ := joinOrder_extends known'
  refine ⟨segments', hrun', fun x => ?_⟩
  rw [(hext.covers known).mem_iff, (hext'.covers known').mem_iff]
  simp only [same]

theorem joinOrder_joins_least_subtree_of_blog :
    ∃ segments, blog.joinOrder "Comment" ["User", "Tag", "Post", "User"] = .ok segments ∧
      blog.Covers "Comment" ["User", "Tag", "Post", "User"] segments := by
  obtain ⟨segments, hrun, hcovers, _⟩ :=
    (joinOrder_joins_least_subtree blog "Comment" ["User", "Tag", "Post", "User"]).2
      (by decide +kernel)
  exact ⟨segments, hrun, hcovers⟩

end TreeQuery.Tree
