/-!
# Ordered sets

A set that remembers the order in which its members first came in.

* `mem_insert`, `mem_ofList`: membership;
* `toList_insert`: a member that is already there stays where it is, a new one goes to the end;
* `ofList_toList`: a set is made of its members again.
-/

namespace TreeQuery

/-- The members in the order of their first insertion, none twice. -/
structure OrderedSet (α : Type) where
  toList : List α
  nodup : toList.Nodup

namespace OrderedSet

variable {α : Type}

@[ext] theorem ext {s t : OrderedSet α} (h : s.toList = t.toList) : s = t := by
  cases s; cases t; cases h; rfl

instance [DecidableEq α] : DecidableEq (OrderedSet α) := fun s t =>
  decidable_of_iff (s.toList = t.toList) ⟨ext, fun h => h ▸ rfl⟩

def empty : OrderedSet α := ⟨[], List.nodup_nil⟩

instance : Membership α (OrderedSet α) := ⟨fun s a => a ∈ s.toList⟩

theorem mem_toList {a : α} {s : OrderedSet α} : a ∈ s.toList ↔ a ∈ s := Iff.rfl

@[simp] theorem not_mem_empty {a : α} : a ∉ (empty : OrderedSet α) := List.not_mem_nil

variable [DecidableEq α]

instance (a : α) (s : OrderedSet α) : Decidable (a ∈ s) :=
  inferInstanceAs (Decidable (a ∈ s.toList))

def contains (s : OrderedSet α) (a : α) : Bool := s.toList.contains a

@[simp] theorem contains_iff {s : OrderedSet α} {a : α} : s.contains a = true ↔ a ∈ s :=
  List.contains_iff_mem

def size (s : OrderedSet α) : Nat := s.toList.length

def isEmpty (s : OrderedSet α) : Bool := s.toList.isEmpty

/-- Adds `a` at the end unless it is already a member. -/
def insert (s : OrderedSet α) (a : α) : OrderedSet α :=
  if h : a ∈ s then s
  else ⟨s.toList ++ [a], List.nodup_append.mpr
    ⟨s.nodup, List.pairwise_singleton _ a, fun x hx y hy hxy => by
      rw [List.mem_singleton] at hy; subst hy hxy; exact h hx⟩⟩

theorem toList_insert (s : OrderedSet α) (a : α) :
    (s.insert a).toList = if a ∈ s then s.toList else s.toList ++ [a] := by
  unfold insert; split <;> rfl

@[simp] theorem mem_insert {s : OrderedSet α} {a b : α} : b ∈ s.insert a ↔ b ∈ s ∨ b = a := by
  rw [← mem_toList, toList_insert]
  split
  · next h => exact ⟨Or.inl, fun hb => hb.elim id (· ▸ h)⟩
  · simp [mem_toList]

/-- Adds the members of a list one after another. -/
def insertMany (s : OrderedSet α) (items : List α) : OrderedSet α :=
  items.foldl insert s

@[simp] theorem mem_insertMany {s : OrderedSet α} {items : List α} {b : α} :
    b ∈ s.insertMany items ↔ b ∈ s ∨ b ∈ items := by
  induction items generalizing s with
  | nil => simp [insertMany]
  | cons a rest ih =>
    rw [insertMany, List.foldl_cons, ← insertMany, ih, mem_insert, List.mem_cons, or_assoc]

/-- The members of a list in the order of their first appearance. -/
def ofList (items : List α) : OrderedSet α := empty.insertMany items

/-- New members go to the end in their order. -/
theorem toList_insertMany (s : OrderedSet α) (items : List α) (h : (s.toList ++ items).Nodup) :
    (s.insertMany items).toList = s.toList ++ items := by
  induction items generalizing s with
  | nil => rw [insertMany, List.foldl_nil, List.append_nil]
  | cons a items ih =>
    have hnew : a ∉ s := by
      rw [List.nodup_append] at h
      exact fun ha => h.2.2 a ha a List.mem_cons_self rfl
    have hnext : (s.insert a).toList = s.toList ++ [a] := by rw [toList_insert, if_neg hnew]
    rw [insertMany, List.foldl_cons, ← insertMany, ih, hnext, List.append_assoc]
    · rfl
    · rwa [hnext, List.append_assoc]

theorem ofList_toList (s : OrderedSet α) : ofList s.toList = s :=
  ext (toList_insertMany empty s.toList s.nodup)

@[simp] theorem mem_ofList {items : List α} {b : α} : b ∈ ofList items ↔ b ∈ items := by
  simp [ofList]

end OrderedSet

end TreeQuery
