import TreeQuery.Binary64

/-!
# Shortest decimals

The decimal with the fewest digits that reads back as a given magnitude. On each grid of decimals
with a given number of digits the two neighbours of the value are tried; of two that read back the
nearer one is taken.
-/

namespace TreeQuery.Binary64

/-- The value lies between a tenth and one, times ten to this place. -/
def valuePlace (m : Nat) : Int :=
  (Decimal.width (valueNum m * Nat.pow 10 400 / valueDen) : Int) - 400

def readsBack (m : Nat) (d : Decimal) : Bool := nearestDecimal d = m

/-- The neighbour of the value on the grid of multiples of `10 ^ exponent` that reads back, the
nearer one if both do, and the even one if both are equally near. -/
def onGrid (m : Nat) (exponent : Int) : Option Decimal :=
  let num := valueNum m * Nat.pow 10 (-exponent).toNat
  let den := valueDen * Nat.pow 10 exponent.toNat
  let down : Decimal := ⟨num / den, exponent⟩
  let up : Decimal := ⟨num / den + 1, exponent⟩
  let nearer :=
    if 2 * (num % den) < den ∨ (2 * (num % den) = den ∧ down.digits % 2 = 0) then down else up
  match readsBack m down, readsBack m up with
  | true, true => some nearer
  | true, false => some down
  | false, true => some up
  | false, false => none

/-- The value itself, with all its digits. -/
def exactDecimal (m : Nat) : Decimal :=
  ⟨valueNum m * Nat.pow 5 1074, -1074⟩

/-- The decimal with the fewest digits that reads back as the magnitude. Seventeen digits always
suffice. -/
def shortest (m : Nat) : Decimal :=
  let place := valuePlace m
  let found := (List.range' 1 17).findSome? fun (count : Nat) => onGrid m (place - count)
  (found.getD (exactDecimal m)).trim

end TreeQuery.Binary64
