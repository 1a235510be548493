/-!
# Ordered maps

A finite map that remembers the order in which its keys first came in.

* `get?_insert`: the last value written under a key is the one found;
* `keys_insert`: writing under a key that is already there leaves it in its place, a new key goes
  to the end;
* `ofList_entries`: a map is made of its entries again;
* `get?_eq_some_iff`, `mem_keys_iff`: look-up and the list of entries agree.
-/

namespace TreeQuery

/-- The entries in the order in which their keys were first inserted, no key twice. -/
structure OrderedMap (κ ν : Type) where
  entries : List (κ × ν)
  nodup : (entries.map Prod.fst).Nodup

namespace OrderedMap

variable {κ ν : Type}

@[ext] theorem ext {m n : OrderedMap κ ν} (h : m.entries = n.entries) : m = n := by
  cases m; cases n; cases h; rfl

instance [DecidableEq κ] [DecidableEq ν] : DecidableEq (OrderedMap κ ν) := fun m n =>
  decidable_of_iff (m.entries = n.entries) ⟨ext, fun h => h ▸ rfl⟩

variable [DecidableEq κ]

def empty : OrderedMap κ ν := ⟨[], List.nodup_nil⟩

def keys (m : OrderedMap κ ν) : List κ := m.entries.map Prod.fst

def size (m : OrderedMap κ ν) : Nat := m.entries.length

def isEmpty (m : OrderedMap κ ν) : Bool := m.entries.isEmpty

/-- The first value that a list of entries holds under a key. -/
def look (k : κ) : List (κ × ν) → Option ν
  | [] => none
  | (k', v) :: rest => if k' = k then some v else look k rest

/-- The value under a key. -/
def get? (m : OrderedMap κ ν) (k : κ) : Option ν :=
  look k m.entries

def contains (m : OrderedMap κ ν) (k : κ) : Bool :=
  m.keys.contains k

@[simp] theorem contains_iff {m : OrderedMap κ ν} {k : κ} : m.contains k = true ↔ k ∈ m.keys :=
  List.contains_iff_mem

/-- Writes `v` under `k` in place, or at the end when the key is new. -/
def put (k : κ) (v : ν) : List (κ × ν) → List (κ × ν)
  | [] => [(k, v)]
  | (k', v') :: rest => if k' = k then (k, v) :: rest else (k', v') :: put k v rest

theorem keys_put (k : κ) (v : ν) (entries : List (κ × ν)) :
    (put k v entries).map Prod.fst =
      if k ∈ entries.map Prod.fst then entries.map Prod.fst else entries.map Prod.fst ++ [k] := by
  induction entries with
  | nil => simp [put]
  | cons e rest ih =>
    obtain ⟨k', v'⟩ := e
    by_cases h : k' = k
    · simp [put, h]
    · have h' : k ≠ k' := fun e => h e.symm
      by_cases hk : k ∈ rest.map Prod.fst
      · simp only [put, h, if_false, List.map_cons, ih, if_pos hk, List.mem_cons, h', false_or]
      · simp only [put, h, if_false, List.map_cons, ih, if_neg hk, List.mem_cons, h', false_or,
          List.cons_append]

theorem look_put (k k₂ : κ) (v : ν) (entries : List (κ × ν)) :
    look k₂ (put k v entries) = if k = k₂ then some v else look k₂ entries := by
  induction entries with
  | nil => simp [put, look]
  | cons e rest ih =>
    obtain ⟨k', v'⟩ := e
    by_cases h : k' = k
    · by_cases h₂ : k = k₂ <;> simp [put, look, h, h₂]
    · by_cases h₂ : k' = k₂
      · subst h₂
        have h₃ : k ≠ k' := fun e => h e.symm
        simp [put, look, h, h₃]
      · simp [put, look, h, h₂, ih]

/-- Writes `v` under `k`: a key that is already there keeps its place. -/
def insert (m : OrderedMap κ ν) (k : κ) (v : ν) : OrderedMap κ ν where
  entries := put k v m.entries
  nodup := by
    rw [keys_put]
    split
    · exact m.nodup
    · next h =>
      exact List.nodup_append.mpr ⟨m.nodup, List.pairwise_singleton _ k, fun x hx y hy hxy => by
        rw [List.mem_singleton] at hy; subst hy hxy; exact h hx⟩

theorem keys_insert (m : OrderedMap κ ν) (k : κ) (v : ν) :
    (m.insert k v).keys = if k ∈ m.keys then m.keys else m.keys ++ [k] :=
  keys_put k v m.entries

theorem get?_insert (m : OrderedMap κ ν) (k k₂ : κ) (v : ν) :
    (m.insert k v).get? k₂ = if k = k₂ then some v else m.get? k₂ :=
  look_put k k₂ v m.entries

/-- The map without a key. -/
def erase (m : OrderedMap κ ν) (k : κ) : OrderedMap κ ν where
  entries := m.entries.filter (·.1 ≠ k)
  nodup := m.nodup.sublist (List.filter_sublist.map Prod.fst)

/-- The entries written one after another. -/
def ofList (entries : List (κ × ν)) : OrderedMap κ ν :=
  entries.foldl (fun m (k, v) => m.insert k v) empty

theorem put_of_not_mem {k : κ} {entries : List (κ × ν)} (h : k ∉ entries.map Prod.fst) (v : ν) :
    put k v entries = entries ++ [(k, v)] := by
  induction entries with
  | nil => rfl
  | cons e entries ih =>
    rw [List.map_cons, List.mem_cons, not_or] at h
    rw [put, if_neg fun he => h.1 he.symm, ih h.2, List.cons_append]

/-- New keys go to the end in their order. -/
theorem entries_foldl_insert (m : OrderedMap κ ν) (entries : List (κ × ν))
    (h : ((m.entries ++ entries).map Prod.fst).Nodup) :
    (entries.foldl (fun m (k, v) => m.insert k v) m).entries = m.entries ++ entries := by
  induction entries generalizing m with
  | nil => rw [List.foldl_nil, List.append_nil]
  | cons e entries ih =>
    obtain ⟨k, v⟩ := e
    have hnew : k ∉ m.entries.map Prod.fst := by
      rw [List.map_append, List.nodup_append] at h
      exact fun hk => h.2.2 k hk k List.mem_cons_self rfl
    have hnext : (m.insert k v).entries = m.entries ++ [(k, v)] := put_of_not_mem hnew v
    rw [List.foldl_cons, ih, hnext, List.append_assoc]
    · rfl
    · rwa [hnext, List.append_assoc]

theorem ofList_entries (m : OrderedMap κ ν) : ofList m.entries = m :=
  ext (entries_foldl_insert empty m.entries m.nodup)

theorem get?_eq_some_iff {m : OrderedMap κ ν} {k : κ} {v : ν} :
    m.get? k = some v ↔ (k, v) ∈ m.entries := by
  obtain ⟨entries, nodup⟩ := m
  change look k entries = some v ↔ (k, v) ∈ entries
  induction entries with
  | nil => simp [look]
  | cons e rest ih =>
    obtain ⟨k', v'⟩ := e
    have hrest := List.nodup_cons.mp nodup
    by_cases h : k' = k
    · subst h
      have : (k', v) ∉ rest := fun hm => hrest.1 (List.mem_map.mpr ⟨_, hm, rfl⟩)
      simp [look, this, eq_comm]
    · have h' : k ≠ k' := fun e => h e.symm
      simp [look, h, h', ih hrest.2]

theorem mem_keys_iff {m : OrderedMap κ ν} {k : κ} : k ∈ m.keys ↔ ∃ v, m.get? k = some v := by
  simp [keys, get?_eq_some_iff]

end OrderedMap

end TreeQuery
