import TreeQuery.Proofs.Acceptance
import TreeQuery.Tree.Path

/-!
# The search for a path

* `Searching`: how the stack of a search and its visited entities hang together;
* `search_finds`: the depth-first search finds the path, in whatever order it meets the neighbors;
* `path_eq_ok_iff`, `path_eq_error_iff`: what a look-up of a path answers;
* `path_is_the_only_one`: the answer is the only path, from either end and to every entity on it.
-/

namespace TreeQuery.Tree

open SimpleGraph

variable {t : Tree} {a b : String} {p : List String}

/-- A search under way: the stack holds paths over visited entities, the target is ahead, and
nothing borders on the visited entities but what waits on the stack. -/
structure Searching (t : Tree) (source target : String) (unvisited : List String)
    (stack : List (String × List String)) : Prop where
  nodup : unvisited.Nodup
  trails : ∀ name trail, (name, trail) ∈ stack →
    t.IsPath source name (name :: trail).reverse ∧ ∀ x ∈ trail, x ∉ unvisited
  missed : target ∈ unvisited
  started : source ∈ unvisited → ∃ trail, (source, trail) ∈ stack
  bordered : ∀ x y, x ∉ unvisited → t.adjacent x y = true → y ∈ unvisited →
    ∃ trail, (y, trail) ∈ stack

variable {source target name : String} {trail unvisited : List String}
  {stack : List (String × List String)}

namespace Searching

theorem start (ht : target ∈ t.schema.names) :
    t.Searching source target t.schema.names [(source, [])] where
  nodup := Schema.nodup_names
  trails name trail h := by
    obtain ⟨rfl, rfl⟩ := Prod.mk.inj (List.mem_singleton.mp h)
    exact ⟨.single t name, fun x hx => absurd hx List.not_mem_nil⟩
  missed := ht
  started _ := ⟨[], List.mem_singleton_self _⟩
  bordered x y hx hxy _ := absurd (mem_names_of_adj (adjacent_iff.mp hxy)) hx

theorem mem_onward {x : String} {w : List String} :
    (x, w) ∈ (((t.neighbors name).filter (· ∈ unvisited.erase name)).map
        (·, name :: trail)).reverse ↔
      t.adjacent name x = true ∧ x ∈ unvisited.erase name ∧ w = name :: trail := by
  simp [adjacent, eq_comm, and_assoc]

/-- The path to the entity that is visited goes on to its unvisited neighbors. -/
theorem trail_onward (h : t.Searching source target unvisited ((name, trail) :: stack)) {x : String}
    (hadj : t.adjacent name x = true) (hx : x ∈ unvisited.erase name) :
    t.IsPath source x (x :: name :: trail).reverse ∧
      ∀ y ∈ name :: trail, y ∉ unvisited.erase name := by
  obtain ⟨hpath, htrail⟩ := h.trails name trail List.mem_cons_self
  have passed : ∀ y ∈ name :: trail, y ∉ unvisited.erase name := by
    intro y hy hyu
    obtain ⟨hyn, hyu⟩ := h.nodup.mem_erase_iff.mp hyu
    rcases List.mem_cons.mp hy with rfl | hy
    · exact hyn rfl
    · exact htrail y hy hyu
  refine ⟨?_, passed⟩
  rw [List.reverse_cons (a := x)]
  exact hpath.snoc hadj fun hmem => passed x (List.mem_reverse.mp hmem) hx

/-- An unvisited entity other than the target is visited, and its unvisited neighbors wait. -/
theorem visit (h : t.Searching source target unvisited ((name, trail) :: stack))
    (hn : name ≠ target) :
    t.Searching source target (unvisited.erase name)
      ((((t.neighbors name).filter (· ∈ unvisited.erase name)).map (·, name :: trail)).reverse ++
        stack) := by
  have mem_erase {x : String} : x ∈ unvisited.erase name ↔ x ≠ name ∧ x ∈ unvisited :=
    h.nodup.mem_erase_iff
  have keep {x : String} {w : List String} (hx : x ≠ name) (hw : (x, w) ∈ (name, trail) :: stack) :
      (x, w) ∈ stack :=
    (List.mem_cons.mp hw).resolve_left fun e => hx (Prod.mk.inj e).1
  refine ⟨h.nodup.erase name, ?_, mem_erase.mpr ⟨hn.symm, h.missed⟩, ?_, ?_⟩
  · intro x w hw
    rcases List.mem_append.mp hw with hw | hw
    · obtain ⟨hadj, hx, rfl⟩ := mem_onward.mp hw
      exact h.trail_onward hadj hx
    · obtain ⟨hpath, htrail⟩ := h.trails x w (List.mem_cons_of_mem _ hw)
      exact ⟨hpath, fun y hy hyu => htrail y hy (mem_erase.mp hyu).2⟩
  · intro hs
    obtain ⟨hsn, hsu⟩ := mem_erase.mp hs
    obtain ⟨w, hw⟩ := h.started hsu
    exact ⟨w, List.mem_append_right _ (keep hsn hw)⟩
  · intro x y hx hxy hy
    by_cases hxn : x = name
    · subst hxn
      exact ⟨_, List.mem_append_left _ (mem_onward.mpr ⟨hxy, hy, rfl⟩)⟩
    · obtain ⟨hyn, hyu⟩ := mem_erase.mp hy
      obtain ⟨w, hw⟩ := h.bordered x y (fun hxu => hx (mem_erase.mpr ⟨hxn, hxu⟩)) hxy hyu
      exact ⟨w, List.mem_append_right _ (keep hyn hw)⟩

/-- A second way to a visited entity is dropped. -/
theorem skip (h : t.Searching source target unvisited ((name, trail) :: stack))
    (hv : name ∉ unvisited) : t.Searching source target unvisited stack := by
  have keep {x : String} {w : List String} (hx : x ∈ unvisited)
      (hw : (x, w) ∈ (name, trail) :: stack) : (x, w) ∈ stack :=
    (List.mem_cons.mp hw).resolve_left fun e => hv ((Prod.mk.inj e).1 ▸ hx)
  refine ⟨h.nodup, fun x w hw => h.trails x w (List.mem_cons_of_mem _ hw), h.missed, ?_, ?_⟩
  · intro hs
    obtain ⟨w, hw⟩ := h.started hs
    exact ⟨w, keep hs hw⟩
  · intro x y hx hxy hy
    obtain ⟨w, hw⟩ := h.bordered x y hx hxy hy
    exact ⟨w, keep hy hw⟩

/-- The stack does not run out before the target: the visited entities would be a whole component
without it. -/
theorem not_done (hs : source ∈ t.schema.names) (ht : target ∈ t.schema.names) :
    ¬ t.Searching source target unvisited [] := by
  intro h
  refine Schema.closed_of_reachable (P := (· ∉ unvisited)) (fun x y hx hxy hy => ?_)
    (t.formsTree.connected source hs target ht) (fun hu => ?_) h.missed
  · obtain ⟨w, hw⟩ := h.bordered x y hx (adjacent_iff.mpr hxy) hy
    exact List.not_mem_nil hw
  · obtain ⟨w, hw⟩ := h.started hu
    exact List.not_mem_nil hw

end Searching

theorem search_finds (hs : source ∈ t.schema.names) (ht : target ∈ t.schema.names)
    (h : t.Searching source target unvisited stack) :
    ∃ p, t.search target unvisited stack = some p ∧ t.IsPath source target p := by
  fun_induction search t target unvisited stack with
  | case1 unvisited => exact absurd h (Searching.not_done hs ht)
  | case2 unvisited trail stack => exact ⟨_, rfl, (h.trails target trail List.mem_cons_self).1⟩
  | case3 unvisited name trail stack hn hu onward ih => exact ih (h.visit hn)
  | case4 unvisited name trail stack hn hv ih => exact ih (h.skip hv)

/-! ## Looking a path up -/

theorem path_eq_error_iff {e : PlanError} :
    t.path a b = .error e ↔
      (t.contains a = false ∧ e = .query (.unknownEntity a)) ∨
      (t.contains a = true ∧ t.contains b = false ∧ e = .query (.unknownEntity b)) := by
  unfold path
  cases ha : t.contains a with
  | false => simp [ha, @eq_comm _ e]
  | true =>
    cases hb : t.contains b with
    | false => simp [ha, hb, @eq_comm _ e]
    | true =>
      obtain ⟨p, hp, _⟩ := search_finds (contains_iff.mp ha) (contains_iff.mp hb)
        (Searching.start (contains_iff.mp hb))
      simp [ha, hb, hp]

theorem exists_path (ha : a ∈ t.schema.names) (hb : b ∈ t.schema.names) :
    ∃ p, t.path a b = .ok p ∧ t.IsPath a b p := by
  obtain ⟨p, hp, h⟩ := search_finds ha hb (Searching.start hb)
  refine ⟨p, ?_, h⟩
  simp [path, contains_iff.mpr ha, contains_iff.mpr hb, hp]

/-- The look-up answers the one path there is. -/
theorem path_eq_ok_iff (ha : a ∈ t.schema.names) (hb : b ∈ t.schema.names) :
    t.path a b = .ok p ↔ t.IsPath a b p := by
  obtain ⟨q, hq, h⟩ := exists_path ha hb
  rw [hq]
  constructor
  · intro e; exact Except.ok.inj e ▸ h
  · intro hp; rw [hp.unique h]

/-- **A look-up answers the only path there is.** It fails for the first end that is no entity, and
for nothing else. -/
theorem path_is_the_only_one (t : Tree) (a b : String) :
    (∀ e, t.path a b = .error e ↔
      (t.contains a = false ∧ e = .query (.unknownEntity a)) ∨
      (t.contains a = true ∧ t.contains b = false ∧ e = .query (.unknownEntity b))) ∧
    (t.contains a = true → t.contains b = true →
      ∃ p, t.path a b = .ok p ∧ t.IsPath a b p ∧ (∀ q, t.IsPath a b q → q = p) ∧
        t.path b a = .ok p.reverse ∧
        ∀ before c after, p = before ++ c :: after → t.path a c = .ok (before ++ [c])) := by
  refine ⟨fun e => path_eq_error_iff, fun ha hb => ?_⟩
  rw [contains_iff] at ha hb
  obtain ⟨p, hp, h⟩ := exists_path ha hb
  refine ⟨p, hp, h, fun q hq => h.unique hq, (path_eq_ok_iff hb ha).mpr h.reverse, ?_⟩
  rintro before c after rfl
  have hc : c ∈ t.schema.names :=
    h.mem_names ha c (List.mem_append_right _ List.mem_cons_self)
  exact (path_eq_ok_iff ha hc).mpr h.leading

theorem path_is_the_only_one_in_blog :
    ∃ p, blog.path "Tag" "User" = .ok p ∧ blog.IsPath "Tag" "User" p ∧
      blog.path "User" "Tag" = .ok p.reverse := by
  obtain ⟨p, hp, h, _, hback, _⟩ :=
    (path_is_the_only_one blog "Tag" "User").2 (by decide +kernel) (by decide +kernel)
  exact ⟨p, hp, h, hback⟩

end TreeQuery.Tree
