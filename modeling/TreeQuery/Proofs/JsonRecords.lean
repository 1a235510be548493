import TreeQuery.Json.Markup
import TreeQuery.Ordered.Set
import TreeQuery.Proofs.JsonValues

/-!
# JSON lists, maps and records read back

What is written part by part is read part by part.

* `all_strings`, `nesting_strings`, `nesting_object_map`: what lists and maps are made of;
* `texts?_strings`, `map?_object`: a list of strings and a map of values are read back.
-/

namespace TreeQuery

namespace Json

theorem all_strings {p : Value → Prop} (h : ∀ s, p (.string s)) (items : List String) :
    (Value.strings items).All p := all_array_map fun s _ => h s

theorem nesting_strings (items : List String) : (Value.strings items).nesting ≤ 1 := by
  have hitems : ∀ v ∈ items.map Value.string, v.nesting ≤ 0 :=
    List.forall_mem_map.mpr fun _ _ => Nat.le_refl 0
  exact Nat.succ_le_succ (nestingItems_le_iff.mpr hitems)

/-- A map nests one level deeper than its values. -/
theorem nesting_object_map {β : Type} {write : β → Value} {entries : List (String × β)} {k : Nat}
    (h : ∀ e ∈ entries, (write e.2).nesting ≤ k) :
    (Value.object (entries.map fun e => (e.1, write e.2))).nesting ≤ k + 1 :=
  Nat.succ_le_succ (nestingMembers_le_iff.mpr (List.forall_mem_map.mpr h))

end Json

open Json (Value)

/-- What is written part by part is read part by part. -/
theorem mapM_map_eq_some {α β γ : Type} {read : β → Option γ} {write : α → β} {meant : α → γ}
    {items : List α} (h : ∀ a ∈ items, read (write a) = some (meant a)) :
    (items.map write).mapM read = some (items.map meant) := by
  induction items with
  | nil => rfl
  | cons a items ih =>
    rw [List.map_cons, List.mapM_cons, h a List.mem_cons_self,
      ih fun b hb => h b (List.mem_cons_of_mem a hb)]
    rfl

theorem mapM_map_write {α β : Type} {read : β → Option α} {write : α → β} {items : List α}
    (h : ∀ a ∈ items, read (write a) = some a) : (items.map write).mapM read = some items := by
  rw [mapM_map_eq_some h, List.map_id']

theorem texts?_strings (items : List String) :
    Markup.texts? (Value.strings items) = some items := by
  change (items.map Value.string).mapM Markup.text? = some items
  exact mapM_map_write fun _ _ => rfl

/-- A map is read back in its order if its values are. -/
theorem map?_object {β : Type} {read : Value → Option β} (write : β → Value)
    (m : OrderedMap String β) (h : ∀ e ∈ m.entries, read (write e.2) = some e.2) :
    Markup.map? read (Value.object (m.entries.map fun e => (e.1, write e.2))) = some m := by
  have hentries : (m.entries.map fun e : String × β => (e.1, write e.2)).mapM
      (fun e : String × Value => do return (e.1, ← read e.2)) = some m.entries := by
    refine mapM_map_write fun e he => ?_
    rw [h e he]
    rfl
  change ((m.entries.map fun e : String × β => (e.1, write e.2)).mapM
      (fun e : String × Value => do return (e.1, ← read e.2))).bind
    (fun entries => some (OrderedMap.ofList entries)) = some m
  rw [hentries, Option.bind_some, m.ofList_entries]

end TreeQuery
