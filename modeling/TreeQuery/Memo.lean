import TreeQuery.Binary64

/-!
# Remembering one result

A slot that holds the result for the argument of the last successful computation. Asking again for
an equal argument is a hit and computes nothing; any other argument is a miss, whose result takes
the slot over unless the computation fails.

Keys are compared by `==`, which need not be equality. Look-ups are counted in words of 64 bits,
which start over at zero behind their largest value.
-/

namespace TreeQuery

/-- A word stands for its number where a number is meant. -/
instance coeWord : CoeOut UInt64 Nat := ⟨UInt64.toNat⟩

structure Memo (κ ν : Type) where
  slot : Option (κ × ν)
  hits : UInt64
  misses : UInt64

namespace Memo

variable {κ ν ε : Type}

def empty : Memo κ ν := ⟨none, 0, 0⟩

/-- Empties the slot and keeps the counts. -/
def clear (m : Memo κ ν) : Memo κ ν := { m with slot := none }

/-- The value held for a key. -/
def find? [BEq κ] (m : Memo κ ν) (key : κ) : Option ν :=
  match m.slot with
  | some (held, value) => if held == key then some value else none
  | none => none

/-- Counts a look-up that found its key. -/
def hit (m : Memo κ ν) : Memo κ ν := { m with hits := m.hits + 1 }

/-- Counts a look-up that did not. -/
def miss (m : Memo κ ν) : Memo κ ν := { m with misses := m.misses + 1 }

/-- Looks a key up and counts the outcome. -/
def look [BEq κ] (m : Memo κ ν) (key : κ) : Option ν × Memo κ ν :=
  match m.find? key with
  | some value => (some value, m.hit)
  | none => (none, m.miss)

/-- Takes the slot over. -/
def store (m : Memo κ ν) (key : κ) (value : ν) : Memo κ ν := { m with slot := some (key, value) }

/-- The value for a key, computed unless it is held, by a computation that may have effects. -/
def getM {μ : Type → Type} [Monad μ] [BEq κ] (m : Memo κ ν) (key : κ)
    (compute : κ → μ (Except ε ν)) : μ (Except ε ν × Memo κ ν) :=
  match m.look key with
  | (some value, m) => pure (.ok value, m)
  | (none, m) => do
    match ← compute key with
    | .ok value => return (.ok value, m.store key value)
    | .error e => return (.error e, m)

/-- The value for a key, computed unless it is held. -/
def get [BEq κ] (m : Memo κ ν) (key : κ) (compute : κ → Except ε ν) :
    Except ε ν × Memo κ ν :=
  Id.run (m.getM key fun key => pure (compute key))

/-- The share of hits among all look-ups, zero if these are none. The total is a word again. -/
def hitRate (m : Memo κ ν) : Binary64 :=
  let total := m.hits + m.misses
  if total = 0 then .zero else .divide (.ofNat m.hits) (.ofNat total)

end Memo

end TreeQuery
