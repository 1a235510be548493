import TreeQuery.Memo

/-!
# What a memory holds

A slot that holds results of one function only is as good as the function, and stays so.

* `Counts`: what the words say about the number of look-ups;
* `Respects`: a function that cannot tell equal keys apart;
* `get_found`, `get_computed`, `get_failed`: the three ways of a look-up;
* `Holds`, `Holds.get`: what the slot is good for, before and after a look-up;
* `Follows`, `Follows.get`: the slot and the counts after a run of look-ups.
-/

namespace TreeQuery.Memo

variable {κ ν ε : Type} {m : Memo κ ν} {compute : κ → Except ε ν} {key : κ} {value : ν}
  {keys : List κ}

/-! ## Counts -/

/-- Hits and misses together are a number of look-ups: as words for any number, and in value as long
as the number fits a word. -/
structure Counts (m : Memo κ ν) (n : Nat) : Prop where
  word : m.hits + m.misses = .ofNat n
  value : n < UInt64.size → m.hits.toNat + m.misses.toNat = n

theorem empty_counts : (empty : Memo κ ν).Counts 0 := ⟨rfl, fun _ => rfl⟩

theorem toNat_succ {x : UInt64} (h : x.toNat + 1 < UInt64.size) :
    (x + 1).toNat = x.toNat + 1 := by
  rw [UInt64.toNat_add, UInt64.toNat_one]
  exact Nat.mod_eq_of_lt h

theorem Counts.hit {n : Nat} (h : m.Counts n) : m.hit.Counts (n + 1) where
  word := by
    change m.hits + 1 + m.misses = _
    rw [UInt64.ofNat_add, ← h.word, UInt64.add_assoc, UInt64.add_comm 1, ← UInt64.add_assoc]
    rfl
  value hn := by
    have := h.value (by omega)
    change (m.hits + 1).toNat + m.misses.toNat = n + 1
    rw [toNat_succ (by omega)]
    omega

theorem Counts.miss {n : Nat} (h : m.Counts n) : m.miss.Counts (n + 1) where
  word := by
    rw [UInt64.ofNat_add, ← h.word]
    exact (UInt64.add_assoc ..).symm
  value hn := by
    have := h.value (by omega)
    change m.hits.toNat + (m.misses + 1).toNat = n + 1
    rw [toNat_succ (by omega)]
    omega

/-- The slot has no part in the counts. -/
theorem Counts.store {n : Nat} (h : m.Counts n) (key : κ) (value : ν) :
    (m.store key value).Counts n := ⟨h.word, h.value⟩

theorem Counts.clear {n : Nat} (h : m.Counts n) : m.clear.Counts n := ⟨h.word, h.value⟩

/-! ## What is held -/

/-- Whatever the slot holds is the result for its key. -/
def Holds (m : Memo κ ν) (compute : κ → Except ε ν) : Prop :=
  ∀ key value, m.slot = some (key, value) → compute key = .ok value

theorem empty_holds : (empty : Memo κ ν).Holds compute := nofun

theorem store_holds (hc : compute key = .ok value) : (m.store key value).Holds compute := by
  intro k v hslot
  obtain ⟨rfl, rfl⟩ := Prod.mk.inj (Option.some.inj hslot)
  exact hc

/-- What a run of look-ups leaves behind if nothing failed: the last key is held, and every look-up
is counted. -/
structure Follows (m : Memo κ ν) (keys : List κ) : Prop where
  last : m.slot.map Prod.fst = keys.getLast?
  counted : m.Counts keys.length

theorem empty_follows : (empty : Memo κ ν).Follows [] := ⟨rfl, empty_counts⟩

/-- One more look-up, be it a hit or a miss. -/
theorem Follows.snoc {m' : Memo κ ν} (hslot : m'.slot.map Prod.fst = some key)
    (counted : m'.Counts (keys.length + 1)) : m'.Follows (keys ++ [key]) where
  last := by rw [hslot, List.getLast?_concat]
  counted := by rwa [List.length_append]

/-! ## One look-up -/

section LookUp

variable [BEq κ]

/-- The function has one result for keys that compare as equal. -/
def Respects (compute : κ → Except ε ν) : Prop :=
  ∀ a b : κ, (a == b) = true → compute a = compute b

theorem respects_of_lawful [LawfulBEq κ] (compute : κ → Except ε ν) : Respects compute :=
  fun _ _ h => congrArg compute (eq_of_beq h)

theorem find?_eq_some_iff :
    m.find? key = some value ↔ ∃ held, m.slot = some (held, value) ∧ (held == key) = true := by
  cases hslot : m.slot with
  | none => simp [find?, hslot]
  | some entry =>
    obtain ⟨held, stored⟩ := entry
    have hfind : m.find? key = if (held == key) = true then some stored else none := by
      simp only [find?, hslot]
    rw [hfind]
    constructor
    · intro h
      split at h
      · next heq => exact ⟨held, by rw [Option.some.inj h], heq⟩
      · cases h
    · rintro ⟨held', hentry, heq⟩
      obtain ⟨rfl, rfl⟩ := Prod.mk.inj (Option.some.inj hentry)
      exact if_pos heq

theorem isSome_find? (m : Memo κ ν) (key : κ) :
    (m.find? key).isSome = m.slot.any (·.1 == key) := by
  cases hslot : m.slot with
  | none => simp [find?, hslot]
  | some entry => cases hk : entry.1 == key <;> simp [find?, hslot, hk]

theorem get_found (h : m.find? key = some value) : m.get key compute = (.ok value, m.hit) := by
  simp only [get, getM, look, h]
  rfl

theorem get_computed (h : m.find? key = none) (hc : compute key = .ok value) :
    m.get key compute = (.ok value, m.miss.store key value) := by
  simp only [get, getM, look, h, hc]
  rfl

theorem get_failed {e : ε} (h : m.find? key = none) (hc : compute key = .error e) :
    m.get key compute = (.error e, m.miss) := by
  simp only [get, getM, look, h, hc]
  rfl

/-- What is found is what would have been computed. -/
theorem Holds.found (h : m.Holds compute) (respects : Respects compute)
    (hfind : m.find? key = some value) : compute key = .ok value := by
  obtain ⟨held, hslot, heq⟩ := find?_eq_some_iff.mp hfind
  rw [← respects held key heq]
  exact h held value hslot

theorem Holds.get (h : m.Holds compute) (respects : Respects compute) (key : κ) :
    (m.get key compute).1 = compute key ∧ (m.get key compute).2.Holds compute := by
  cases hfind : m.find? key with
  | some value =>
    rw [get_found hfind, h.found respects hfind]
    exact ⟨rfl, h⟩
  | none =>
    cases hc : compute key with
    | error e =>
      rw [get_failed hfind hc]
      exact ⟨rfl, h⟩
    | ok value =>
      rw [get_computed hfind hc]
      exact ⟨rfl, store_holds hc⟩

end LookUp

/-! ## Runs of look-ups -/

section Runs

variable [DecidableEq κ]

theorem find?_eq_some : m.find? key = some value ↔ m.slot = some (key, value) := by
  rw [find?_eq_some_iff]
  constructor
  · rintro ⟨held, hslot, heq⟩
    rw [hslot, eq_of_beq heq]
  · intro hslot
    exact ⟨key, hslot, BEq.rfl⟩

theorem get_held (h : m.slot = some (key, value)) : (m.get key compute).2 = m.hit := by
  rw [get_found (find?_eq_some.mpr h)]

theorem get_missed (h : m.slot.map Prod.fst ≠ some key) (hc : compute key = .ok value) :
    (m.get key compute).2 = m.miss.store key value := by
  have hfind : m.find? key = none := by
    cases hfind : m.find? key with
    | none => rfl
    | some held =>
      have hslot := find?_eq_some.mp hfind
      exact absurd (by rw [hslot]; rfl) h
  rw [get_computed hfind hc]

variable (compute) in
/-- A look-up of the last key is a hit, and any other is a miss. -/
theorem Follows.get (h : m.Follows keys) (hc : compute key = .ok value) :
    (m.get key compute).2.Follows (keys ++ [key]) ∧
      ((m.get key compute).2.hits, (m.get key compute).2.misses) =
        if keys.getLast? = some key then (m.hits + 1, m.misses) else (m.hits, m.misses + 1) := by
  by_cases hlast : keys.getLast? = some key
  · have hkey : m.slot.map Prod.fst = some key := h.last.trans hlast
    obtain ⟨⟨held, result⟩, hslot, rfl⟩ := Option.map_eq_some_iff.mp hkey
    rw [get_held hslot, if_pos hlast]
    exact ⟨.snoc hkey h.counted.hit, rfl⟩
  · have hmissed : m.slot.map Prod.fst ≠ some key := h.last ▸ hlast
    rw [get_missed hmissed hc, if_neg hlast]
    exact ⟨.snoc rfl (h.counted.miss.store key value), rfl⟩

end Runs

end TreeQuery.Memo
