import Mathlib.Data.Multiset.Bind
import TreeQuery.Proofs.JoinSteps

/-!
# What a chain of joins means

A chain of joins is evaluated from left to right: every join pairs what was found so far with the
rows of its entity and keeps the pairs that satisfy its conditions.

* `Database.evaluate`: the combinations of rows that a chain of joins finds;
* `Database.choices`, `Tree.Agree`, `Tree.Respects`: all combinations, and the ones in which every
  declared reference leads to the row that it names, without any order of joins;
* `respects_snoc`: the conditions of one step are all that its new row has to respect;
* `evaluate_steps`: hence all steps together find the combinations that respect every reference;
* `joins_find_related_rows`: what the joins of a join order find.
-/

namespace TreeQuery

open Sql (Column)

/-- A value for each column. -/
abbrev Row (ν : Type) := String → ν

/-- A row for each of some entities, in the order in which these came in. -/
abbrev Combination (ν : Type) := List (String × Row ν)

/-- The rows of every entity, and a test by which two values are equal in a join. Of the test only
symmetry is asked: a value need not be equal to itself. -/
structure Database (ν : Type) where
  rows : String → List (Row ν)
  same : ν → ν → Bool
  same_comm : ∀ v w, same v w = same w v

variable {ν : Type}

/-- The value of a column in the row of its entity, if that is there. -/
def Combination.value? (c : Combination ν) (column : Column) : Option ν :=
  (OrderedMap.look column.entity c).map (· column.name)

namespace Database

/-- A condition holds when both of its columns are there and their values are equal. -/
def holds (db : Database ν) (c : Combination ν) (condition : JoinCondition) : Bool :=
  match c.value? condition.left, c.value? condition.right with
  | some v, some w => db.same v w
  | _, _ => false

/-- Every combination with every row of the joined entity, as far as all conditions hold. -/
def join (db : Database ν) (found : List (Combination ν)) (j : Join) : List (Combination ν) :=
  found.flatMap fun c =>
    ((db.rows j.entity).map fun row => c ++ [(j.entity, row)]).filter fun c =>
      j.conditions.all (db.holds c)

/-- What a chain of joins finds from the rows of the entity that it starts with. -/
def evaluate (db : Database ν) (source : String) (joins : List Join) : List (Combination ν) :=
  joins.foldl db.join ((db.rows source).map fun row => [(source, row)])

/-- Every way to choose one row for each of some entities. -/
def choices (db : Database ν) : List String → List (Combination ν)
  | [] => [[]]
  | name :: names => (db.rows name).flatMap fun row => (db.choices names).map ((name, row) :: ·)

end Database

namespace Tree

/-- If the first entity refers to the second, the local columns of its row are equal, pair by pair,
to the identifier columns of the other row. -/
def Agree (t : Tree) (db : Database ν) (referring referenced : String × Row ν) : Prop :=
  ∀ r ∈ t.schema.reference? referring.1 referenced.1, ∀ entity ∈ t.entity? referenced.1,
    List.Forall₂ (fun own key => db.same (referring.2 own) (referenced.2 key) = true)
      r.localColumns entity.identifier

/-- Every reference declared between two entities of a combination leads to the row that it
names. -/
def Respects (t : Tree) (db : Database ν) (c : Combination ν) : Prop :=
  ∀ p ∈ c, ∀ q ∈ c, t.Agree db p q

instance (t : Tree) (db : Database ν) (p q : String × Row ν) : Decidable (t.Agree db p q) :=
  inferInstanceAs (Decidable (∀ r ∈ t.schema.reference? p.1 q.1, ∀ entity ∈ t.entity? q.1,
    List.Forall₂ (fun own key => db.same (p.2 own) (q.2 key) = true)
      r.localColumns entity.identifier))

instance (t : Tree) (db : Database ν) : DecidablePred (t.Respects db) := fun c =>
  inferInstanceAs (Decidable (∀ p ∈ c, ∀ q ∈ c, t.Agree db p q))

/-- The connected sets of entities with given members. -/
def connecting (t : Tree) (names : List String) : Set (Set String) :=
  {X | (t.schema.graph.induce X).Preconnected ∧ ∀ x ∈ names, x ∈ X}

end Tree

/-! ## Choices -/

namespace Database

variable {db : Database ν} {names names' : List String} {name : String} {c : Combination ν}

theorem mem_choices : c ∈ db.choices names ↔
    c.map Prod.fst = names ∧ ∀ p ∈ c, p.2 ∈ db.rows p.1 := by
  induction names generalizing c with
  | nil => cases c <;> simp [choices]
  | cons name names ih =>
    simp only [choices, List.mem_flatMap, List.mem_map, ih]
    constructor
    · rintro ⟨row, hrow, rest, ⟨rfl, hrest⟩, rfl⟩
      exact ⟨rfl, List.forall_mem_cons.mpr ⟨hrow, hrest⟩⟩
    · rintro ⟨hnames, hrows⟩
      cases c with
      | nil => cases hnames
      | cons p rest =>
        obtain ⟨hp, hrest⟩ := List.forall_mem_cons.mp hrows
        obtain ⟨rfl, hrestnames⟩ := List.cons.inj hnames
        exact ⟨p.2, hp, rest, ⟨hrestnames, hrest⟩, rfl⟩

theorem choices_singleton : db.choices [name] = (db.rows name).map fun row => [(name, row)] := by
  simp [choices, List.map_eq_flatMap]

theorem choices_snoc : db.choices (names ++ [name]) =
    (db.choices names).flatMap fun c => (db.rows name).map fun row => c ++ [(name, row)] := by
  induction names with
  | nil => simp [choices_singleton, choices]
  | cons first names ih =>
    simp only [List.cons_append, choices, ih, List.flatMap_assoc, List.map_flatMap,
      List.flatMap_map, List.map_map]
    rfl

/-- The choices without the order in which they come and in which they list their rows. -/
def unordered (found : List (Combination ν)) : Multiset (Multiset (String × Row ν)) :=
  Multiset.ofList (found.map Multiset.ofList)

theorem unordered_choices_cons : unordered (db.choices (name :: names)) =
    (Multiset.ofList (db.rows name)).bind fun row =>
      (unordered (db.choices names)).map ((name, row) ::ₘ ·) := by
  simp only [unordered, choices, Multiset.coe_bind, Multiset.map_coe, List.map_flatMap,
    List.map_map, Function.comp_def, Multiset.cons_coe]

/-- The order of the entities plays no part in what there is to choose. -/
theorem unordered_choices_perm (h : names.Perm names') :
    unordered (db.choices names) = unordered (db.choices names') := by
  induction h with
  | nil => rfl
  | cons name _ ih => rw [unordered_choices_cons, unordered_choices_cons, ih]
  | swap a b names =>
    simp only [unordered_choices_cons, Multiset.map_bind, Multiset.map_map, Function.comp_def]
    rw [Multiset.bind_bind]
    simp only [Multiset.cons_swap]
  | trans _ _ ih₁ ih₂ => exact ih₁.trans ih₂

end Database

/-! ## One step -/

theorem Combination.value?_of_mem {c : Combination ν} {name : String} {row : Row ν}
    (hd : (c.map Prod.fst).Nodup) (h : (name, row) ∈ c) (column : String) :
    c.value? ⟨name, column⟩ = some (row column) := by
  have found : OrderedMap.look name c = some row :=
    OrderedMap.get?_eq_some_iff (m := ⟨c, hd⟩).mpr h
  simp [Combination.value?, found]

namespace Tree

variable {t : Tree} {db : Database ν} {c : Combination ν} {source left right : String}
  {rowL rowR : Row ν} {joined : List String} {j : Join}

theorem agree_iff {r : Reference} (h : t.schema.reference? left right = some r) :
    t.Agree db (left, rowL) (right, rowR) ↔
      ∀ pair ∈ r.pairs, db.same (rowL pair.1) (rowR pair.2) = true := by
  obtain ⟨-, -, hlen, target, htarget, hkey⟩ := t.formsTree.matched left right r h
  have htarget : t.entity? right = some target := htarget
  simp only [Agree, h, htarget, Option.mem_some_iff, forall_eq', List.forall₂_iff_zip, ← hkey,
    hlen, true_and, Reference.pairs, Prod.forall]

theorem agree_of_no_reference (h : t.schema.reference? left right = none) :
    t.Agree db (left, rowL) (right, rowR) := by
  intro r hr
  cases h.symm.trans hr

/-- The conditions of a step hold when its two rows agree on the reference between them, on
whichever side that is declared. -/
theorem conditions_iff (hadj : t.adjacent left right = true)
    (hj : t.joinConditions left right = .ok j.conditions) (hd : (c.map Prod.fst).Nodup)
    (hl : (left, rowL) ∈ c) (hr : (right, rowR) ∈ c) :
    j.conditions.all (db.holds c) = true ↔
      t.Agree db (left, rowL) (right, rowR) ∧ t.Agree db (right, rowR) (left, rowL) := by
  have holds (a b : String) :
      db.holds c ⟨⟨left, a⟩, ⟨right, b⟩⟩ = db.same (rowL a) (rowR b) := by
    simp only [Database.holds, Combination.value?_of_mem hd hl, Combination.value?_of_mem hd hr]
  rcases reference?_of_adjacent hadj with ⟨r, href⟩ | ⟨r, href⟩
  · have other : t.Agree db (right, rowR) (left, rowL) :=
      agree_of_no_reference (reference?_back href)
    rw [joinConditions_forward href] at hj
    rw [← Except.ok.inj hj, agree_iff href, List.all_map, List.all_eq_true]
    simp only [Function.comp_def, holds, other, and_true]
  · have other : t.Agree db (left, rowL) (right, rowR) :=
      agree_of_no_reference (reference?_back href)
    rw [joinConditions_backward href] at hj
    rw [← Except.ok.inj hj, agree_iff href, List.all_map, List.all_eq_true]
    simp only [Function.comp_def, holds, other, true_and, db.same_comm]

theorem agree_self (p : String × Row ν) : t.Agree db p p := by
  refine agree_of_no_reference (Option.eq_none_iff_forall_ne_some.mpr fun r hr => ?_)
  exact (t.formsTree.matched p.1 p.1 r hr).1 rfl

theorem agree_of_not_adjacent (h : ¬ t.adjacent left right = true) :
    t.Agree db (left, rowL) (right, rowR) ∧ t.Agree db (right, rowR) (left, rowL) := by
  refine ⟨agree_of_no_reference ?_, agree_of_no_reference ?_⟩
  · exact Option.eq_none_iff_forall_ne_some.mpr fun r hr => h (adjacent_of_reference? hr)
  · exact Option.eq_none_iff_forall_ne_some.mpr fun r hr =>
      h (adjacent_symm (adjacent_of_reference? hr))

/-- A new row respects all references when it satisfies the conditions of its join: it borders on no
other joined entity. -/
theorem respects_snoc (hs : source ∈ t.schema.names) (hc : t.PathClosed source joined)
    (hd : joined.Nodup) (hl : left ∈ joined) (hr : right ∉ joined)
    (hadj : t.adjacent left right = true) (hj : t.joinConditions left right = .ok j.conditions)
    (hnames : c.map Prod.fst = joined) :
    t.Respects db (c ++ [(right, rowR)]) ↔
      t.Respects db c ∧ j.conditions.all (db.holds (c ++ [(right, rowR)])) = true := by
  obtain ⟨⟨_, rowL⟩, hmem, rfl⟩ := List.mem_map.mp (hnames ▸ hl)
  have hd' : ((c ++ [(right, rowR)]).map Prod.fst).Nodup := by
    rw [List.map_append, hnames, List.map_singleton, ← List.concat_eq_append]
    exact hd.concat hr
  have inC {p : String × Row ν} (hp : p ∈ c) : p ∈ c ++ [(right, rowR)] := List.mem_append_left _ hp
  have new : (right, rowR) ∈ c ++ [(right, rowR)] :=
    List.mem_append_right _ (List.mem_singleton_self _)
  rw [conditions_iff hadj hj hd' (inC hmem) new]
  constructor
  · intro h
    exact ⟨fun p hp q hq => h p (inC hp) q (inC hq), h _ (inC hmem) _ new, h _ new _ (inC hmem)⟩
  · rintro ⟨hrespects, hforth, hback⟩
    have border {p : String × Row ν} (hp : p ∈ c) :
        t.Agree db p (right, rowR) ∧ t.Agree db (right, rowR) p := by
      by_cases hpr : t.adjacent p.1 right = true
      · have hpj : p.1 ∈ joined := hnames ▸ List.mem_map_of_mem hp
        have hp' : p = (_, rowL) := List.inj_on_of_nodup_map (hnames ▸ hd) hp hmem
          (hc.only_neighbor hs hl hr hadj hpj hpr)
        exact hp' ▸ ⟨hforth, hback⟩
      · exact agree_of_not_adjacent hpr
    intro p hp q hq
    rcases List.mem_append.mp hp with hp | hp <;> rcases List.mem_append.mp hq with hq | hq
    · exact hrespects p hp q hq
    · exact List.mem_singleton.mp hq ▸ (border hp).1
    · exact List.mem_singleton.mp hp ▸ (border hq).2
    · rw [List.mem_singleton.mp hp, List.mem_singleton.mp hq]
      exact agree_self _

/-! ## All steps -/

/-- One join of combinations that respect all references finds those of the larger set that do. -/
theorem join_respecting (hs : source ∈ t.schema.names) (hc : t.PathClosed source joined)
    (hd : joined.Nodup) (hl : left ∈ joined) (hr : j.entity ∉ joined)
    (hadj : t.adjacent left j.entity = true)
    (hj : t.joinConditions left j.entity = .ok j.conditions) :
    db.join ((db.choices joined).filter (t.Respects db)) j =
      (db.choices (joined ++ [j.entity])).filter (t.Respects db) := by
  have hnames : ∀ c ∈ db.choices joined, c.map Prod.fst = joined := fun c hmem =>
    (Database.mem_choices.mp hmem).1
  rw [Database.choices_snoc, List.filter_flatMap, Database.join]
  generalize db.choices joined = found at hnames
  induction found with
  | nil => rfl
  | cons c found ih =>
    obtain ⟨hcn, hnames⟩ := List.forall_mem_cons.mp hnames
    have snoc (row : Row ν) : t.Respects db (c ++ [(j.entity, row)]) ↔ t.Respects db c ∧
        j.conditions.all (db.holds (c ++ [(j.entity, row)])) = true :=
      respects_snoc hs hc hd hl hr hadj hj hcn
    by_cases hrespects : t.Respects db c
    · have rows : ∀ c' ∈ (db.rows j.entity).map fun row => c ++ [(j.entity, row)],
          j.conditions.all (db.holds c') = decide (t.Respects db c') := by
        intro c' hc'
        obtain ⟨row, -, rfl⟩ := List.mem_map.mp hc'
        rw [Bool.eq_iff_iff, decide_eq_true_iff, snoc row, and_iff_right hrespects]
      rw [List.filter_cons, if_pos (decide_eq_true hrespects), List.flatMap_cons, List.flatMap_cons,
        ih hnames, List.filter_congr rows]
    · have none_left : ((db.rows j.entity).map fun row => c ++ [(j.entity, row)]).filter
          (fun c' => decide (t.Respects db c')) = [] := by
        refine List.filter_eq_nil_iff.mpr fun c' hc' => ?_
        obtain ⟨row, -, rfl⟩ := List.mem_map.mp hc'
        rw [decide_eq_true_iff, snoc row]
        exact fun h => hrespects h.1
      rw [List.filter_cons, if_neg (by simpa using hrespects), List.flatMap_cons, ih hnames,
        none_left, List.nil_append]

/-- The steps of a join order find the combinations that respect all references. -/
theorem evaluate_steps {steps : List (String × String)} {joins : List Join}
    (hs : source ∈ t.schema.names) (hc : t.PathClosed source joined) (hd : joined.Nodup)
    (h : t.Attaches joined steps) (hj : t.StepJoins steps joins) :
    joins.foldl db.join ((db.choices joined).filter (t.Respects db)) =
      (db.choices (joined ++ steps.map Prod.snd)).filter (t.Respects db) := by
  induction h generalizing joins with
  | nil joined =>
    cases hj
    simp
  | @cons joined left right steps hl hr hadj _ ih =>
    obtain ⟨join, joins, ⟨hentity, hconditions⟩, hrest, rfl⟩ := List.forall₂_cons_left_iff.mp hj
    obtain rfl : join.entity = right := hentity
    have hd' : (joined ++ [join.entity]).Nodup := List.concat_eq_append ▸ hd.concat hr
    rw [List.foldl_cons, join_respecting hs hc hd hl hr hadj hconditions,
      ih (hc.attach hs hl hr hadj) hd' hrest, List.map_cons, List.append_assoc,
      List.singleton_append]

theorem respects_singleton (row : Row ν) : t.Respects db [(source, row)] := by
  intro p hp q hq
  rw [List.mem_singleton.mp hp, List.mem_singleton.mp hq]
  exact agree_self _

/-- Respect does not depend on the order of the rows in a combination. -/
theorem unordered_respecting (found : List (Combination ν)) :
    Database.unordered (found.filter (t.Respects db)) =
      (Database.unordered found).filter fun m => ∀ p ∈ m, ∀ q ∈ m, t.Agree db p q := by
  have same : (fun c => decide (t.Respects db c)) =
      (fun m : Multiset (String × Row ν) => decide (∀ p ∈ m, ∀ q ∈ m, t.Agree db p q)) ∘
        Multiset.ofList := by
    funext c
    exact decide_eq_decide.mpr (by simp only [Multiset.mem_coe, Respects])
  rw [Database.unordered, Database.unordered, Multiset.filter_coe, List.filter_map, same]

/-! ## Join orders -/

variable {targets targets' : List String} {segments : List Segment}

theorem Covers.isLeast (h : t.Covers source targets segments) :
    IsLeast (t.connecting (source :: targets)) {x | x ∈ covered source segments} := by
  refine ⟨⟨h.connected, ?_⟩, ?_⟩
  · exact List.forall_mem_cons.mpr ⟨List.mem_cons_self, h.targets_mem⟩
  · rintro X ⟨hX, hmem⟩ x hx
    obtain ⟨hs, ht⟩ := List.forall_mem_cons.mp hmem
    exact h.least X hX hs ht x hx

/-- A join order becomes joins, and these find what respects all references. -/
theorem exists_evaluation (known : ∀ x ∈ source :: targets, x ∈ t.schema.names) :
    ∃ segments joins, t.joinOrder source targets = .ok segments ∧ t.joins segments = .ok joins ∧
      t.Covers source targets segments ∧
      ∀ {ν : Type} (db : Database ν), db.evaluate source joins =
        (db.choices (covered source segments)).filter (t.Respects db) := by
  obtain ⟨segments, hrun, hext⟩ := joinOrder_extends known
  obtain ⟨joins, hjoins, hall⟩ := exists_joins hext.attaches.adjacent
  refine ⟨segments, joins, hrun, hjoins, hext.covers known, fun db => ?_⟩
  have start : (db.choices [source]).filter (t.Respects db) =
      (db.rows source).map fun row => [(source, row)] := by
    rw [Database.choices_singleton]
    refine List.filter_eq_self.mpr fun c hc => ?_
    obtain ⟨row, -, rfl⟩ := List.mem_map.mp hc
    exact decide_eq_true (respects_singleton row)
  rw [Database.evaluate, ← start, evaluate_steps (known source List.mem_cons_self) PathClosed.start
    (List.nodup_singleton source) hext.attaches hall, steps_targets]
  rfl

/-- **A chain of joins finds the related rows.** Evaluated from left to right, the joins of a join
order find each choice of one row for every entity of the smallest connected set over its source and
targets in which all references declared between these entities lead to the rows that they name. The
order of the targets and their repetition play no part. -/
theorem joins_find_related_rows (t : Tree) (source : String) (targets : List String)
    (known : ∀ x ∈ source :: targets, t.contains x = true) :
    ∃ segments joins, t.joinOrder source targets = .ok segments ∧ t.joins segments = .ok joins ∧
      (covered source segments).Nodup ∧
      IsLeast (t.connecting (source :: targets)) {x | x ∈ covered source segments} ∧
      (∀ {ν : Type} (db : Database ν),
        db.evaluate source joins =
          (db.choices (covered source segments)).filter (t.Respects db) ∧
        ∀ c, c ∈ db.evaluate source joins ↔ c.map Prod.fst = covered source segments ∧
          (∀ p ∈ c, p.2 ∈ db.rows p.1) ∧ t.Respects db c) ∧
      ∀ targets', (∀ x, x ∈ targets' ↔ x ∈ targets) →
        ∃ segments' joins', t.joinOrder source targets' = .ok segments' ∧
          t.joins segments' = .ok joins' ∧
          ∀ {ν : Type} (db : Database ν), Database.unordered (db.evaluate source joins') =
            Database.unordered (db.evaluate source joins) := by
  have names : ∀ x ∈ source :: targets, x ∈ t.schema.names := fun x hx =>
    contains_iff.mp (known x hx)
  obtain ⟨segments, joins, hrun, hjoins, hcovers, heval⟩ := exists_evaluation names
  refine ⟨segments, joins, hrun, hjoins, hcovers.nodup, hcovers.isLeast, fun db => ⟨heval db, ?_⟩,
    fun targets' same => ?_⟩
  · intro c
    rw [heval db, List.mem_filter, Database.mem_choices, decide_eq_true_iff, and_assoc]
  · have names' : ∀ x ∈ source :: targets', x ∈ t.schema.names := by
      simpa only [List.mem_cons, same] using names
    obtain ⟨segments', joins', hrun', hjoins', hcovers', heval'⟩ := exists_evaluation names'
    refine ⟨segments', joins', hrun', hjoins', fun db => ?_⟩
    have perm : (covered source segments').Perm (covered source segments) := by
      refine (List.perm_ext_iff_of_nodup hcovers'.nodup hcovers.nodup).mpr fun x => ?_
      rw [hcovers.mem_iff, hcovers'.mem_iff]
      simp only [same]
    rw [heval db, heval' db, unordered_respecting, unordered_respecting,
      Database.unordered_choices_perm perm]

end Tree

/-- Two rows for every entity, told apart by the value that stands in all of their columns. -/
def Database.twins : Database Nat where
  rows _ := [fun _ => 0, fun _ => 1]
  same v w := v == w
  same_comm _ _ := Bool.beq_comm

theorem Tree.joins_find_related_twins_in_blog :
    ∃ segments joins, blog.joinOrder "Comment" ["User", "Tag", "User"] = .ok segments ∧
      blog.joins segments = .ok joins ∧
      IsLeast (blog.connecting ["Comment", "User", "Tag", "User"])
        {x | x ∈ covered "Comment" segments} ∧
      Database.twins.evaluate "Comment" joins =
        (Database.twins.choices (covered "Comment" segments)).filter (blog.Respects .twins) := by
  obtain ⟨segments, joins, hrun, hjoins, -, hleast, hrows, -⟩ :=
    joins_find_related_rows blog "Comment" ["User", "Tag", "User"] (by decide +kernel)
  exact ⟨segments, joins, hrun, hjoins, hleast, (hrows .twins).1⟩

end TreeQuery
