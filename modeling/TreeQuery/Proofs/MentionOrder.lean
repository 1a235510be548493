import Mathlib.Data.List.Induction
import TreeQuery.Proofs.FilterTokens

/-!
# The order of mentions

The entities of a filter are collected by a walk that meets a node before its children, and the
expression of the filter is written by one that finishes the children first. Only nodes without
children have operands, so that both meet the operands in the same order.

* `FirstsOf`: the members of a list, each at the place where the list first has it;
* `firstsOf_ofList`, `FirstsOf.unique`: an ordered set keeps that order, and there is no other;
* `Filter.Mentions`, `Filter.entitiesRead`: what is mentioned, anywhere and from left to right;
* `mentions_in_order_read`: the entities of a filter stand in the order of a reading, which is the
  order in which its expression names them.
-/

namespace TreeQuery

/-! ## First occurrences -/

section Firsts

variable {α : Type} [DecidableEq α]

/-- The members of a list in the order in which it first has them. -/
structure FirstsOf (items firsts : List α) : Prop where
  mem_iff : ∀ a, a ∈ firsts ↔ a ∈ items
  sorted : firsts.Pairwise fun a b => items.idxOf a < items.idxOf b

namespace FirstsOf

variable {items firsts firsts' : List α} {a : α}

theorem nil : FirstsOf ([] : List α) [] := ⟨fun _ => Iff.rfl, .nil⟩

theorem nodup (h : FirstsOf items firsts) : firsts.Nodup := by
  refine h.sorted.imp fun hlt => ?_
  rintro rfl
  exact absurd hlt (Nat.lt_irrefl _)

/-- Places in a list stay where they are when it goes on. -/
theorem sorted_append (h : FirstsOf items firsts) (rest : List α) :
    firsts.Pairwise fun a b => (items ++ rest).idxOf a < (items ++ rest).idxOf b := by
  refine h.sorted.imp_of_mem fun ha hb hlt => ?_
  rw [List.idxOf_append_of_mem ((h.mem_iff _).mp ha),
    List.idxOf_append_of_mem ((h.mem_iff _).mp hb)]
  exact hlt

/-- One more item that has come before adds nothing. -/
theorem again (h : FirstsOf items firsts) (ha : a ∈ items) : FirstsOf (items ++ [a]) firsts where
  mem_iff b := by
    rw [h.mem_iff, List.mem_append, List.mem_singleton]
    constructor
    · exact .inl
    · rintro (hb | rfl)
      · exact hb
      · exact ha
  sorted := h.sorted_append [a]

/-- A new item comes last. -/
theorem snoc (h : FirstsOf items firsts) (ha : a ∉ items) :
    FirstsOf (items ++ [a]) (firsts ++ [a]) where
  mem_iff b := by rw [List.mem_append, List.mem_append, h.mem_iff]
  sorted := by
    rw [List.pairwise_append]
    refine ⟨h.sorted_append [a], List.pairwise_singleton _ a, fun b hb c hc => ?_⟩
    obtain rfl := List.mem_singleton.mp hc
    have hmem : b ∈ items := (h.mem_iff b).mp hb
    rw [List.idxOf_append_of_mem hmem, List.idxOf_append_of_notMem ha]
    have := List.idxOf_lt_length_of_mem hmem
    omega

/-- The order leaves no choice. -/
theorem unique (h : FirstsOf items firsts) (h' : FirstsOf items firsts') : firsts = firsts' := by
  have perm : firsts.Perm firsts' :=
    (List.perm_ext_iff_of_nodup h.nodup h'.nodup).mpr fun a =>
      (h.mem_iff a).trans (h'.mem_iff a).symm
  refine perm.eq_of_pairwise (fun a b _ _ hlt hgt => ?_) h.sorted h'.sorted
  exact absurd hlt (Nat.lt_asymm hgt)

end FirstsOf

/-- An ordered set has its members in the order of their first insertion. -/
theorem firstsOf_ofList (items : List α) : FirstsOf items (OrderedSet.ofList items).toList := by
  induction items using List.reverseRecOn with
  | nil => exact .nil
  | append_singleton items a ih =>
    have hinsert : OrderedSet.ofList (items ++ [a]) = (OrderedSet.ofList items).insert a := by
      rw [OrderedSet.ofList, OrderedSet.insertMany, List.foldl_append]
      rfl
    rw [hinsert, OrderedSet.toList_insert]
    by_cases ha : a ∈ items
    · rw [if_pos (OrderedSet.mem_ofList.mpr ha)]
      exact ih.again ha
    · rw [if_neg fun hmem => ha (OrderedSet.mem_ofList.mp hmem)]
      exact ih.snoc ha

end Firsts

namespace Filter

/-! ## What a filter mentions -/

/-- Some node of the filter has a column of the entity among its operands. -/
inductive Mentions (entity : String) : Filter → Prop
  | own {f : Filter} {name : String} (h : .column entity name ∈ f.operands) : Mentions entity f
  | child {f inner : Filter} (hmem : inner ∈ f.children) (h : Mentions entity inner) :
      Mentions entity f

mutual
/-- The entities of the columns in a filter as they stand in it from left to right. -/
def entitiesRead : Filter → List String
  | .logical _ children => entitiesReadIn children
  | .comparison _ left right => [left, right].filterMap Operand.entity?
  | .range _ subject low high => [subject, low, high].filterMap Operand.entity?
  | .membership _ subject candidates => (subject :: candidates).filterMap Operand.entity?

def entitiesReadIn : List Filter → List String
  | [] => []
  | f :: fs => entitiesRead f ++ entitiesReadIn fs
end

variable {f : Filter} {entity : String}

mutual
/-- Operands that are read node by node are read from left to right. -/
theorem entities_allOperands : ∀ f : Filter,
    f.allOperands.filterMap Operand.entity? = f.entitiesRead
  | .logical op children => by
    rw [allOperands_logical, entitiesRead, entities_allOperands_in children]
  | .comparison op left right => by rw [allOperands_of_leaf rfl, operands, entitiesRead]
  | .range op subject low high => by rw [allOperands_of_leaf rfl, operands, entitiesRead]
  | .membership op subject candidates => by rw [allOperands_of_leaf rfl, operands, entitiesRead]

theorem entities_allOperands_in : ∀ fs : List Filter,
    (fs.map allOperands).flatten.filterMap Operand.entity? = entitiesReadIn fs
  | [] => rfl
  | f :: fs => by
    rw [List.map_cons, List.flatten_cons, List.filterMap_append, entities_allOperands f,
      entities_allOperands_in fs, entitiesReadIn]
end

theorem mem_allOperands {operand : Operand} : operand ∈ f.allOperands ↔
    operand ∈ f.operands ∨ ∃ inner ∈ f.children, operand ∈ inner.allOperands := by
  cases f with
  | logical op children =>
    simp [allOperands_logical, operands, Filter.children]
  | comparison | range | membership =>
    rw [allOperands_of_leaf rfl]
    simp [Filter.children]

theorem mentions_iff : Mentions entity f ↔ ∃ name, .column entity name ∈ f.allOperands := by
  constructor
  · intro h
    induction h with
    | own h => exact ⟨_, mem_allOperands.mpr (.inl h)⟩
    | child hmem _ ih =>
      obtain ⟨name, hname⟩ := ih
      exact ⟨name, mem_allOperands.mpr (.inr ⟨_, hmem, hname⟩)⟩
  · rintro ⟨name, h⟩
    induction f using childInduction with
    | step f ih =>
      rcases mem_allOperands.mp h with hown | ⟨inner, hmem, hinner⟩
      · exact .own hown
      · exact .child hmem (ih inner hmem hinner)

/-! ## The order of mentions -/

theorem firstsOf_mentions (f : Filter) : FirstsOf f.entitiesRead f.mentions := by
  rw [mentions_eq, ← entities_allOperands]
  exact firstsOf_ofList _

/-- The expression of a filter names the entities in the order of a reading. -/
theorem entities_of_compile {first : UInt64} {compiled : Compiled}
    (h : f.compile first = .ok compiled) :
    (Sql.columnsOf (Sql.tokens compiled.sql)).map Sql.Column.entity = f.entitiesRead := by
  obtain ⟨-, htokens, -⟩ := tokens_of_compile h
  have each : (fun operand : Operand => operand.column?.map Sql.Column.entity) =
      Operand.entity? := by
    funext operand
    cases operand <;> rfl
  rw [htokens, Sql.columnsOf_number, operandsOf_tokens, List.map_filterMap, each,
    entities_allOperands]

/-- **The entities of a filter stand in the order of their first mention.** They are those of the
columns anywhere in the filter, none twice, in the order of a reading from left to right. If the
shapes of all nodes are admitted, whatever the first number, the filter has an expression, and this
is also the order in which the columns of the expression first mention them. -/
theorem mentions_in_order_read (f : Filter) :
    f.mentions.Nodup ∧ (∀ entity, entity ∈ f.mentions ↔ f.Mentions entity) ∧
    FirstsOf f.entitiesRead f.mentions ∧
    ∀ first, f.faults = [] → ∃ compiled, f.compile first = .ok compiled ∧
      FirstsOf ((Sql.columnsOf (Sql.tokens compiled.sql)).map Sql.Column.entity) f.mentions := by
  have hread := firstsOf_mentions f
  refine ⟨hread.nodup, fun entity => ?_, hread, fun first hfaults => ?_⟩
  · rw [mem_mentions, mentions_iff]
  · obtain ⟨compiled, hcompiled, -⟩ := exists_compile hfaults first
    refine ⟨compiled, hcompiled, ?_⟩
    rwa [entities_of_compile hcompiled]

/-- Columns of three entities, two of which are named again at another depth. -/
def crossed : Filter :=
  .logical .and [
    .logical .not [.comparison .like (.column "Comment" "body") (.column "User" "name")],
    .membership .among (.column "Post" "title") [.column "User" "name", .literal (.text "x")],
    .comparison .equal (.literal .null) (.column "Comment" "body")]

theorem crossed_in_order_read :
    crossed.mentions = ["Comment", "User", "Post"] ∧
    ∃ compiled, crossed.compile 1 = .ok compiled ∧
      FirstsOf ((Sql.columnsOf (Sql.tokens compiled.sql)).map Sql.Column.entity)
        ["Comment", "User", "Post"] := by
  have hmentions : crossed.mentions = ["Comment", "User", "Post"] := by cbv
  obtain ⟨-, -, -, hcompiled⟩ := mentions_in_order_read crossed
  obtain ⟨compiled, hcompile, hfirsts⟩ := hcompiled 1 (by decide)
  exact ⟨hmentions, compiled, hcompile, hmentions ▸ hfirsts⟩

end Filter

end TreeQuery
