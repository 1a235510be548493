import TreeQuery.Proofs.JoinSteps

/-!
# Edges from both ends

Two entities border on each other, and one of them declares the reference between them. Whoever
looks from one end to the other finds the same edge as from the other end, and the same conditions
with their sides exchanged.

* `edge?_of_reference?`, `edge?_isSome_iff`: the edge between two entities, if they are adjacent;
* `Edge.Pairs`: conditions that compare the columns of a reference one by one;
* `joinConditions_of_reference?`: the conditions of an edge, from either end;
* `edges_read_alike`: edges, adjacency and conditions agree for all names.
-/

namespace TreeQuery

open Sql (Column)

/-- The condition with its sides exchanged. -/
def JoinCondition.swap (c : JoinCondition) : JoinCondition := ⟨c.right, c.left⟩

/-- The condition compares two columns, on whichever sides they stand. -/
def JoinCondition.Equates (c : JoinCondition) (x y : Column) : Prop :=
  c.left = x ∧ c.right = y ∨ c.left = y ∧ c.right = x

theorem JoinCondition.Equates.swap {c : JoinCondition} {x y : Column} (h : c.Equates x y) :
    c.swap.Equates x y :=
  h.symm.imp And.symm And.symm

namespace Tree

variable {t : Tree} {a b : String}

/-! ## Edges -/

theorem edge?_of_reference? {r : Reference} (h : t.schema.reference? a b = some r) :
    t.edge? a b = some ⟨a, b, r⟩ ∧ t.edge? b a = some ⟨a, b, r⟩ := by
  have hback : t.schema.reference? b a = none := reference?_back h
  constructor
  · simp only [edge?, h]
  · simp only [edge?, hback, h, Option.map_some]

theorem edge?_isSome_iff : (t.edge? a b).isSome ↔ t.adjacent a b = true := by
  constructor
  · intro h
    cases hr : t.schema.reference? a b with
    | some r => exact adjacent_of_reference? hr
    | none =>
      simp only [edge?, hr, Option.isSome_map] at h
      obtain ⟨r, hback⟩ := Option.isSome_iff_exists.mp h
      exact adjacent_symm (adjacent_of_reference? hback)
  · intro h
    rcases reference?_of_adjacent h with ⟨r, hr⟩ | ⟨r, hr⟩
    · exact Option.isSome_of_mem (edge?_of_reference? hr).1
    · exact Option.isSome_of_mem (edge?_of_reference? hr).2

theorem edge?_of_not_adjacent (h : t.adjacent a b = false) : t.edge? a b = none := by
  refine Option.not_isSome_iff_eq_none.mp fun hsome => ?_
  exact Bool.false_ne_true (h.symm.trans (edge?_isSome_iff.mp hsome))

theorem adjacent_comm (t : Tree) (a b : String) : t.adjacent a b = t.adjacent b a :=
  Bool.eq_iff_iff.mpr ⟨adjacent_symm, adjacent_symm⟩

/-- The edge between two entities is the same from either end, or from neither. -/
theorem edge?_comm (t : Tree) (a b : String) : t.edge? a b = t.edge? b a := by
  cases h : t.adjacent a b with
  | true =>
    rcases reference?_of_adjacent h with ⟨r, hr⟩ | ⟨r, hr⟩
    · rw [(edge?_of_reference? hr).1, (edge?_of_reference? hr).2]
    · rw [(edge?_of_reference? hr).1, (edge?_of_reference? hr).2]
  | false => rw [edge?_of_not_adjacent h, edge?_of_not_adjacent (t.adjacent_comm a b ▸ h)]

/-! ## Conditions -/

/-- Conditions with `left` on the left and `right` on the right of each. There is one for every
column of an identifier, in order, and it compares that column with the local column of the
reference that matches it. -/
structure Edge.Pairs (edge : Edge) (identifier : List String) (left right : String)
    (conditions : List JoinCondition) : Prop where
  ends : (edge.referring = left ∧ edge.referenced = right) ∨
    (edge.referring = right ∧ edge.referenced = left)
  sides : ∀ c ∈ conditions, c.left.entity = left ∧ c.right.entity = right
  length : conditions.length = identifier.length
  ne_nil : conditions ≠ []
  columns : ∀ (k : Nat) (c : JoinCondition), conditions[k]? = some c →
    ∃ own key, edge.reference.localColumns[k]? = some own ∧ identifier[k]? = some key ∧
      c.Equates ⟨edge.referring, own⟩ ⟨edge.referenced, key⟩

theorem Edge.Pairs.swap {edge : Edge} {identifier : List String} {conditions : List JoinCondition}
    (h : edge.Pairs identifier a b conditions) :
    edge.Pairs identifier b a (conditions.map JoinCondition.swap) where
  ends := h.ends.symm
  sides c hc := by
    obtain ⟨_, hmem, rfl⟩ := List.mem_map.mp hc
    exact (h.sides _ hmem).symm
  length := by rw [List.length_map, h.length]
  ne_nil := by rw [ne_eq, List.map_eq_nil_iff]; exact h.ne_nil
  columns k c hc := by
    rw [List.getElem?_map] at hc
    obtain ⟨_, hget, rfl⟩ := Option.map_eq_some_iff.mp hc
    obtain ⟨own, key, hown, hkey, hequates⟩ := h.columns k _ hget
    exact ⟨own, key, hown, hkey, hequates.swap⟩

/-- The conditions of an edge, from the end that declares the reference and from the other one. No
column of the reference is without a partner. -/
theorem joinConditions_of_reference? {r : Reference} (hr : t.schema.reference? a b = some r) :
    ∃ target conditions, t.entity? b = some target ∧
      t.joinConditions a b = .ok conditions ∧
      t.joinConditions b a = .ok (conditions.map JoinCondition.swap) ∧
      Edge.Pairs ⟨a, b, r⟩ target.identifier a b conditions := by
  obtain ⟨-, -, hlength, target, ht, hforeign⟩ := t.formsTree.matched a b r hr
  refine ⟨target, r.pairs.map fun pair => ⟨⟨a, pair.1⟩, ⟨b, pair.2⟩⟩, ht,
    joinConditions_forward hr, ?_, ?_⟩
  · rw [joinConditions_backward hr, List.map_map]
    rfl
  · obtain ⟨ne_nil, sides⟩ :=
      joinConditions_sides (adjacent_of_reference? hr) (joinConditions_forward hr)
    refine ⟨.inl ⟨rfl, rfl⟩, sides, ?_, ne_nil, ?_⟩
    · rw [List.length_map, Reference.pairs, List.length_zip, hlength, Nat.min_self, hforeign]
    · intro k c hc
      rw [List.getElem?_map] at hc
      obtain ⟨pair, hpair, rfl⟩ := Option.map_eq_some_iff.mp hc
      obtain ⟨hown, hkey⟩ := List.getElem?_zip_eq_some.mp hpair
      exact ⟨pair.1, pair.2, hown, hforeign ▸ hkey, .inl ⟨rfl, rfl⟩⟩

theorem joinConditions_eq_error_iff {e : PlanError} :
    t.joinConditions a b = .error e ↔ t.adjacent a b = false ∧ e = .notAdjacent a b := by
  cases h : t.adjacent a b with
  | false => simp [joinConditions, edge?_of_not_adjacent h, eq_comm]
  | true =>
    rcases reference?_of_adjacent h with ⟨r, hr⟩ | ⟨r, hr⟩
    · simp [joinConditions_forward hr]
    · simp [joinConditions_backward hr]

/-- **An edge reads alike from both ends.** Two names are adjacent, in either order, exactly if
there is an edge between them, which is the same from both. There are no conditions between others;
and between these there is one for every identifier column of the entity referred to, the same from
both ends but for the sides. -/
theorem edges_read_alike (t : Tree) (a b : String) :
    (t.adjacent a b = t.adjacent b a ∧ t.adjacent a b = (t.edge? a b).isSome ∧
      t.adjacent a b = (t.edge? b a).isSome ∧ t.edge? a b = t.edge? b a) ∧
    (∀ e, t.joinConditions a b = .error e ↔ t.adjacent a b = false ∧ e = .notAdjacent a b) ∧
    (t.adjacent a b = true → ∃ edge target conditions,
      t.edge? a b = some edge ∧
      t.schema.reference? edge.referring edge.referenced = some edge.reference ∧
      t.entity? edge.referenced = some target ∧
      t.joinConditions a b = .ok conditions ∧
      edge.Pairs target.identifier a b conditions ∧
      t.joinConditions b a = .ok (conditions.map JoinCondition.swap)) := by
  have present : t.adjacent a b = (t.edge? a b).isSome := Bool.eq_iff_iff.mpr edge?_isSome_iff.symm
  refine ⟨⟨t.adjacent_comm a b, present, t.edge?_comm a b ▸ present, t.edge?_comm a b⟩,
    fun e => joinConditions_eq_error_iff, fun h => ?_⟩
  rcases reference?_of_adjacent h with ⟨r, hr⟩ | ⟨r, hr⟩
  · obtain ⟨target, conditions, ht, hforth, hback, hpairs⟩ := joinConditions_of_reference? hr
    exact ⟨_, target, conditions, (edge?_of_reference? hr).1, hr, ht, hforth, hpairs, hback⟩
  · obtain ⟨target, conditions, ht, hforth, hback, hpairs⟩ := joinConditions_of_reference? hr
    refine ⟨_, target, _, (edge?_of_reference? hr).2, hr, ht, hback, hpairs.swap, ?_⟩
    rw [List.map_map]
    exact hforth.trans (congrArg _ (List.map_id _).symm)

/-- The author of a post has a key of two columns. -/
theorem edges_read_alike_in_blog :
    blog.adjacent "User" "Post" = true ∧
    ∃ conditions, blog.joinConditions "User" "Post" = .ok conditions ∧
      Edge.Pairs ⟨"Post", "User", ⟨["authorTenant", "authorId"], ["tenant", "id"]⟩⟩ ["tenant", "id"]
        "User" "Post" conditions ∧
      blog.joinConditions "Post" "User" = .ok (conditions.map JoinCondition.swap) := by
  have hadj : blog.adjacent "User" "Post" = true := by decide +kernel
  obtain ⟨edge, target, conditions, hedge, -, ht, hforth, hpairs, hback⟩ :=
    (edges_read_alike blog "User" "Post").2.2 hadj
  have author : blog.edge? "User" "Post" =
      some ⟨"Post", "User", ⟨["authorTenant", "authorId"], ["tenant", "id"]⟩⟩ := by decide +kernel
  obtain rfl := Option.some.inj (hedge.symm.trans author)
  have key : (blog.entity? "User").map Entity.identifier = some ["tenant", "id"] := by
    decide +kernel
  rw [ht, Option.map_some, Option.some.injEq] at key
  exact ⟨hadj, conditions, hforth, key ▸ hpairs, hback⟩

end Tree

end TreeQuery
