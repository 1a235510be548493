import TreeQuery.Decimal

/-!
# Binary floating-point numbers

The 64-bit binary format by its bit patterns. Below the sign bit the patterns count the magnitudes
upwards from zero, so a magnitude is held as a natural number: `mantissa m * 2 ^ scale m / 2 ^ 1074`
is the value of the magnitude `m`, and `nearest` finds the magnitude closest to a quotient.

Decimals are rounded once, from their exact value. A quicker reader that rounds the digits to a
number of the format first, and then once more when it scales that number by a power of ten, can end
next to the nearest magnitude: it would give `0.43258806521161963` a last bit that is one too low.
-/

namespace TreeQuery

/-- A floating-point number. Two numbers are the same when their bits are: `0.0` and `-0.0` differ,
and a not-a-number equals itself. -/
structure Binary64 where
  bits : UInt64
  deriving DecidableEq

namespace Binary64

/-- The magnitude of the infinities; all finite magnitudes lie below it. -/
def infinity : Nat := 2047 * Nat.pow 2 52

def magnitude (x : Binary64) : Nat := x.bits.toNat % Nat.pow 2 63

def isNegative (x : Binary64) : Bool := Nat.pow 2 63 ≤ x.bits.toNat

def isFinite (x : Binary64) : Bool := x.magnitude < infinity

def ofMagnitude (negative : Bool) (m : Nat) : Binary64 :=
  ⟨UInt64.ofNat (if negative then Nat.pow 2 63 + m else m)⟩

/-- The mantissa of a magnitude, with its leading bit unless the magnitude is subnormal. -/
def mantissa (m : Nat) : Nat :=
  if m < Nat.pow 2 52 then m else Nat.pow 2 52 + m % Nat.pow 2 52

/-- How many powers of two the mantissa stands above the smallest magnitude. -/
def scale (m : Nat) : Nat := m / Nat.pow 2 52 - 1

/-- The value of a magnitude is `valueNum m / valueDen`. -/
def valueNum (m : Nat) : Nat := mantissa m * Nat.pow 2 (scale m)

def valueDen : Nat := Nat.pow 2 1074

/-- The quotient rounded to the nearest natural number, and to the even one when two are nearest. -/
def roundQuotient (num den : Nat) : Nat :=
  let down := num / den
  let twice := 2 * (num % den)
  if twice < den ∨ (twice = den ∧ down % 2 = 0) then down else down + 1

/-- The magnitude nearest to `num / den`. Neighbouring patterns are neighbouring magnitudes, so a
mantissa that is rounded up past its largest value carries into the exponent. -/
def nearest (num den : Nat) : Nat :=
  let scaled := num * Nat.pow 2 1074
  let scale := (scaled / den).log2 - 52
  scale * Nat.pow 2 52 + roundQuotient scaled (den * Nat.pow 2 scale)

/-- The magnitude nearest to a decimal. Decimals far outside the range of the format are told by
the place of their point, before any power of ten is computed. -/
def nearestDecimal (d : Decimal) : Nat :=
  if d.digits = 0 ∨ d.pointPlace < -400 then 0
  else if 400 < d.pointPlace then infinity
  else nearest d.numerator d.denominator

/-- The number nearest to a decimal, if the decimal is not too large for the format. -/
def ofDecimal? (negative : Bool) (d : Decimal) : Option Binary64 :=
  let m := nearestDecimal d
  if m < infinity then some (ofMagnitude negative m) else none

example : ofDecimal? false ⟨43258806521161963, -17⟩ = some ⟨4601464433715073816⟩ := by
  decide +kernel

def zero : Binary64 := ofMagnitude false 0

/-- The number nearest to a quotient of natural numbers. -/
def ofQuotient (num den : Nat) : Binary64 :=
  if num = 0 then zero else ofMagnitude false (min infinity (nearest num den))

/-- The number nearest to a natural number. -/
def ofNat (n : Nat) : Binary64 := ofQuotient n 1

/-- The number nearest to the quotient of two finite numbers without sign, the second not zero. -/
def divide (x y : Binary64) : Binary64 :=
  ofQuotient (valueNum x.magnitude) (valueNum y.magnitude)

end Binary64

end TreeQuery
