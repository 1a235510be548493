/-!
# Decimals

Unsigned decimals `digits * 10 ^ exponent`, exact and of any size, and the text of a decimal that
is to be read as a number with a fraction.
-/

namespace TreeQuery

/-- The number `digits * 10 ^ exponent`. -/
structure Decimal where
  digits : Nat
  exponent : Int
  deriving DecidableEq

namespace Decimal

/-- The value is `numerator / denominator`. -/
def numerator (d : Decimal) : Nat := d.digits * Nat.pow 10 d.exponent.toNat

def denominator (d : Decimal) : Nat := Nat.pow 10 (-d.exponent).toNat

/-- How many digits a natural number has in base ten. -/
def width (n : Nat) : Nat := (Nat.toDigits 10 n).length

/-- The place of the point: the value is `0.ddd * 10 ^ d.pointPlace` in its own digits. -/
def pointPlace (d : Decimal) : Int := width d.digits + d.exponent

/-- The same value without zeros at the end of the digits. Zero is its one digit. -/
def trim (d : Decimal) : Decimal :=
  if d.digits = 0 then ⟨0, 0⟩
  else if d.digits % 10 = 0 then trim ⟨d.digits / 10, d.exponent + 1⟩
  else d
  termination_by d.digits
  decreasing_by omega

/-- Values from a hundred-thousandth up to sixteen digits before the point are written out. -/
def isPlain (d : Decimal) : Bool := -5 < d.pointPlace && d.pointPlace ≤ 16

def zeros (n : Nat) : List Char := List.replicate n '0'

/-- Written out, with at least one digit on either side of the point. -/
def plain (d : Decimal) : List Char :=
  let digits := Nat.toDigits 10 d.digits
  let place := d.pointPlace
  if 0 ≤ d.exponent then digits ++ zeros d.exponent.toNat ++ ['.', '0']
  else if 0 < place then digits.take place.toNat ++ '.' :: digits.drop place.toNat
  else '0' :: '.' :: zeros (-place).toNat ++ digits

/-- An exponent always has its sign. -/
def exponentText (e : Int) : List Char :=
  (if e < 0 then '-' else '+') :: Nat.toDigits 10 e.natAbs

/-- One digit before the point, the rest behind it, and a power of ten. -/
def scientific (d : Decimal) : List Char :=
  let power := 'e' :: exponentText (d.pointPlace - 1)
  match Nat.toDigits 10 d.digits with
  | [] => power
  | [digit] => digit :: power
  | digit :: rest => digit :: '.' :: rest ++ power

/-- The text always has a point or an exponent, so that it never reads as an integer. -/
def text (d : Decimal) : List Char :=
  if d.isPlain then d.plain else d.scientific

end Decimal

end TreeQuery
