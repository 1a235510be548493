import Mathlib.Tactic.Common
import Mathlib.Tactic.Ring
import TreeQuery.Binary64.Shortest

/-!
# Shortest decimals read back

The reader of decimals goes by their value alone: it does not see how many zeros stand at the end
of the digits. So it is enough that the decimal a magnitude is written as reads back before it is
trimmed.

* `nearest_congr`: equal quotients have the same nearest magnitude;
* `nearestDecimal_shift`: zeros at the end of the digits do not matter;
* `nearestDecimal_exactDecimal`: the exact value of a magnitude reads back;
* `ofDecimal?_shortest`: every finite number is read back from its shortest decimal, by its bits.
-/

namespace TreeQuery

namespace Binary64

/-! ## Quotients -/

theorem roundQuotient_mul_right (num den : Nat) {k : Nat} (hk : 0 < k) :
    roundQuotient (num * k) (den * k) = roundQuotient num den := by
  have htwice : 2 * (num % den * k) = 2 * (num % den) * k := (Nat.mul_assoc ..).symm
  simp only [roundQuotient, Nat.mul_div_mul_right _ _ hk, Nat.mul_mod_mul_right, htwice,
    Nat.mul_lt_mul_right hk, Nat.mul_left_inj hk.ne']

theorem nearest_mul_right (num den : Nat) {k : Nat} (hk : 0 < k) :
    nearest (num * k) (den * k) = nearest num den := by
  have hnum (a : Nat) : num * k * a = num * a * k := Nat.mul_right_comm num k a
  have hden (a : Nat) : den * k * a = den * a * k := Nat.mul_right_comm den k a
  simp only [nearest, hnum, hden, Nat.mul_div_mul_right _ _ hk, roundQuotient_mul_right _ _ hk]

/-- Equal quotients have the same nearest magnitude. -/
theorem nearest_congr {num den num' den' : Nat} (hden : 0 < den) (hden' : 0 < den')
    (h : num * den' = num' * den) : nearest num den = nearest num' den' := by
  calc nearest num den = nearest (num * den') (den * den') := (nearest_mul_right num den hden').symm
    _ = nearest (num' * den) (den' * den) := by rw [h, Nat.mul_comm den]
    _ = nearest num' den' := nearest_mul_right num' den' hden

end Binary64

namespace Decimal

theorem denominator_pos (d : Decimal) : 0 < d.denominator := Nat.pow_pos (by decide)

/-- The same value with more zeros at the end of the digits. -/
def shift (d : Decimal) (count : Nat) : Decimal := ⟨d.digits * 10 ^ count, d.exponent - count⟩

theorem shift_value (d : Decimal) (count : Nat) :
    (d.shift count).numerator * d.denominator = d.numerator * (d.shift count).denominator := by
  have hplaces : count + (d.exponent - count).toNat + (-d.exponent).toNat =
      d.exponent.toNat + (-(d.exponent - count)).toNat := by omega
  calc (d.shift count).numerator * d.denominator
      = d.digits * 10 ^ (count + (d.exponent - count).toNat + (-d.exponent).toNat) := by
        simp only [shift, numerator, denominator, Nat.pow_eq]
        ring
    _ = d.digits * 10 ^ (d.exponent.toNat + (-(d.exponent - count)).toNat) := by rw [hplaces]
    _ = d.numerator * (d.shift count).denominator := by
        simp only [shift, numerator, denominator, Nat.pow_eq]
        ring

theorem width_mul_ten {n : Nat} (hn : 0 < n) : width (n * 10) = width n + 1 := by
  rw [width, width, Nat.toDigits_eq_if (by decide), if_neg (by omega),
    Nat.mul_div_cancel n (by decide), List.length_append, List.length_singleton]

theorem width_mul_pow {n : Nat} (hn : 0 < n) (count : Nat) :
    width (n * 10 ^ count) = width n + count := by
  induction count with
  | zero => rw [Nat.pow_zero, Nat.mul_one, Nat.add_zero]
  | succ count ih =>
    rw [Nat.pow_succ, ← Nat.mul_assoc, width_mul_ten (Nat.mul_pos hn (Nat.pow_pos (by decide))), ih,
      Nat.add_assoc]

theorem pointPlace_shift {d : Decimal} (h : d.digits ≠ 0) (count : Nat) :
    (d.shift count).pointPlace = d.pointPlace := by
  have hwidth := width_mul_pow (Nat.pos_of_ne_zero h) count
  simp only [pointPlace, shift, hwidth]
  omega

end Decimal

namespace Binary64

open Decimal (width)

/-! ## The same value in more digits -/

/-- Zeros at the end of the digits do not matter. -/
theorem nearestDecimal_shift (d : Decimal) (count : Nat) :
    nearestDecimal (d.shift count) = nearestDecimal d := by
  by_cases hzero : d.digits = 0
  · have hshift : (d.shift count).digits = 0 := by rw [Decimal.shift, hzero, Nat.zero_mul]
    rw [nearestDecimal, nearestDecimal, if_pos (.inl hshift), if_pos (.inl hzero)]
  · have hdigits : (d.shift count).digits ≠ 0 :=
      Nat.mul_ne_zero hzero (Nat.pow_pos (by decide)).ne'
    have hnearest : nearest (d.shift count).numerator (d.shift count).denominator =
        nearest d.numerator d.denominator :=
      nearest_congr (Decimal.denominator_pos _) d.denominator_pos (d.shift_value count)
    simp only [nearestDecimal, Decimal.pointPlace_shift hzero, hnearest, hzero, hdigits]

theorem nearestDecimal_trim (d : Decimal) : nearestDecimal d.trim = nearestDecimal d := by
  induction d using Decimal.trim.induct with
  | case1 d hzero =>
    rw [Decimal.trim, if_pos hzero, nearestDecimal, nearestDecimal, if_pos (.inl rfl),
      if_pos (.inl hzero)]
  | case2 d hzero hten ih =>
    have hshift : (⟨d.digits / 10, d.exponent + 1⟩ : Decimal).shift 1 = d := by
      have hdigits : d.digits / 10 * 10 ^ 1 = d.digits := by omega
      have hexponent : d.exponent + 1 - (1 : Nat) = d.exponent := by omega
      rw [Decimal.shift, hdigits, hexponent]
    rw [Decimal.trim, if_neg hzero, if_pos hten, ih, ← nearestDecimal_shift _ 1, hshift]
  | case3 d hzero hten => rw [Decimal.trim, if_neg hzero, if_neg hten]

theorem trim_clear (d : Decimal) : d.trim.digits = 0 → d.trim.exponent = 0 := by
  induction d using Decimal.trim.induct with
  | case1 d hzero =>
    rw [Decimal.trim, if_pos hzero]
    exact fun _ => rfl
  | case2 d hzero hten ih =>
    rw [Decimal.trim, if_neg hzero, if_pos hten]
    exact ih
  | case3 d hzero hten =>
    rw [Decimal.trim, if_neg hzero, if_neg hten]
    exact fun h => absurd h hzero

/-! ## The value of a magnitude -/

theorem scale_mantissa (m : Nat) : scale m * 2 ^ 52 + mantissa m = m := by
  have hdiv := Nat.div_add_mod m (2 ^ 52)
  simp only [scale, mantissa, Nat.pow_eq]
  split
  · next hsmall =>
    have : m / 2 ^ 52 = 0 := Nat.div_eq_of_lt hsmall
    omega
  · next hlarge =>
    have : 0 < m / 2 ^ 52 := Nat.div_pos (Nat.not_lt.mp hlarge) (by decide)
    omega

theorem mantissa_lt (m : Nat) : mantissa m < 2 ^ 53 := by
  have hmod := Nat.mod_lt m (show 0 < 2 ^ 52 by decide)
  simp only [mantissa, Nat.pow_eq]
  split <;> omega

/-- Above the smallest scale every mantissa has its leading bit. -/
theorem scale_eq_zero_or_le_mantissa (m : Nat) : scale m = 0 ∨ 2 ^ 52 ≤ mantissa m := by
  simp only [scale, mantissa, Nat.pow_eq]
  split
  · next hsmall =>
    have : m / 2 ^ 52 = 0 := Nat.div_eq_of_lt hsmall
    omega
  · exact .inr (Nat.le_add_right _ _)

theorem valueDen_pos : 0 < valueDen := by decide +kernel

theorem nearest_eq (num den : Nat) :
    nearest num den = ((num * valueDen / den).log2 - 52) * Nat.pow 2 52 +
      roundQuotient (num * valueDen) (den * Nat.pow 2 ((num * valueDen / den).log2 - 52)) := by
  unfold nearest valueDen
  with_reducible rfl

theorem log2_valueNum (m : Nat) : (valueNum m).log2 - 52 = scale m := by
  have hupper : valueNum m < 2 ^ (scale m + 53) := by
    rw [valueNum, Nat.pow_eq, Nat.add_comm, Nat.pow_add]
    exact Nat.mul_lt_mul_of_pos_right (mantissa_lt m) (Nat.pow_pos (by decide))
  rcases scale_eq_zero_or_le_mantissa m with hscale | hmantissa
  · rcases Nat.eq_zero_or_pos (valueNum m) with hzero | hpos
    · rw [hzero, hscale]
      rfl
    · have := (Nat.log2_lt hpos.ne').mpr hupper
      omega
  · have hlower : 2 ^ (scale m + 52) ≤ valueNum m := by
      rw [valueNum, Nat.pow_eq, Nat.add_comm, Nat.pow_add]
      exact Nat.mul_le_mul_right _ hmantissa
    have hpos : 0 < valueNum m := Nat.lt_of_lt_of_le (Nat.pow_pos (by decide)) hlower
    have := (Nat.log2_lt hpos.ne').mpr hupper
    have := (Nat.le_log2 hpos.ne').mpr hlower
    omega

theorem roundQuotient_one (n : Nat) : roundQuotient n 1 = n := by
  simp [roundQuotient, Nat.mod_one]

/-- The magnitude nearest to the value of a magnitude is that magnitude. -/
theorem nearest_value (m : Nat) : nearest (valueNum m) valueDen = m := by
  have hround : roundQuotient (valueNum m * valueDen) (valueDen * 2 ^ scale m) = mantissa m := by
    have hnum : valueNum m * valueDen = mantissa m * (valueDen * 2 ^ scale m) := by
      rw [valueNum, Nat.pow_eq, Nat.mul_assoc, Nat.mul_comm (2 ^ scale m)]
    have hpos : 0 < valueDen * 2 ^ scale m := Nat.mul_pos valueDen_pos (Nat.pow_pos (by decide))
    have hone := roundQuotient_mul_right (mantissa m) 1 hpos
    rwa [← hnum, Nat.one_mul, roundQuotient_one] at hone
  rw [nearest_eq, Nat.mul_div_cancel _ valueDen_pos, log2_valueNum, Nat.pow_eq, Nat.pow_eq, hround,
    scale_mantissa]

/-! ## The exact value -/

theorem scale_le {m : Nat} (h : m < infinity) : scale m ≤ 2045 := by
  have : m / 2 ^ 52 < 2047 := (Nat.div_lt_iff_lt_mul (Nat.two_pow_pos 52)).mpr h
  rw [scale, Nat.pow_eq]
  omega

theorem valueNum_lt {m top : Nat} (h : scale m ≤ top) : valueNum m < Nat.pow 2 (53 + top) := by
  rw [valueNum, Nat.pow_eq, Nat.pow_eq, Nat.pow_add]
  calc mantissa m * 2 ^ scale m < 2 ^ 53 * 2 ^ scale m :=
        Nat.mul_lt_mul_of_pos_right (mantissa_lt m) (Nat.two_pow_pos _)
    _ ≤ 2 ^ 53 * 2 ^ top := Nat.mul_le_mul_left _ (Nat.pow_le_pow_right (by decide) h)

theorem valueNum_eq_zero {m : Nat} (h : valueNum m = 0) : m = 0 := by
  have hmantissa : mantissa m = 0 :=
    (Nat.mul_eq_zero.mp h).resolve_right (Nat.pow_pos (by decide)).ne'
  have hscale : scale m = 0 := (scale_eq_zero_or_le_mantissa m).resolve_right (by omega)
  rw [← scale_mantissa m, hmantissa, hscale, Nat.zero_mul]

/-- A number over a power of two, with as many places behind the point. -/
def dyadic (n places : Nat) : Decimal := ⟨n * Nat.pow 5 places, -(places : Int)⟩

theorem dyadic_value (n places : Nat) :
    (dyadic n places).numerator * Nat.pow 2 places = n * (dyadic n places).denominator := by
  have hnum : (-(places : Int)).toNat = 0 := by omega
  have hden : (-(-(places : Int))).toNat = places := by omega
  have hten : 5 ^ places * 2 ^ places = 10 ^ places := (Nat.mul_pow 5 2 places).symm
  simp only [dyadic, Decimal.numerator, Decimal.denominator, hnum, hden, Nat.pow_eq, Nat.pow_zero,
    Nat.mul_one]
  rw [Nat.mul_assoc, hten]

theorem width_le_iff {n count : Nat} (hcount : 0 < count) :
    width n ≤ count ↔ n < Nat.pow 10 count := by
  rw [width, Nat.length_toDigits_le_iff (by decide) hcount, Nat.pow_eq]

theorem lt_pointPlace_dyadic {n places count : Nat} (hn : 0 < n) (hcount : 0 < count)
    (h : Nat.pow 10 count ≤ Nat.pow 5 places) :
    (count : Int) - places < (dyadic n places).pointPlace := by
  have hwidth : ¬ width (n * Nat.pow 5 places) ≤ count := by
    rw [width_le_iff hcount, Nat.not_lt]
    exact Nat.le_trans h (Nat.le_mul_of_pos_left _ hn)
  simp only [Decimal.pointPlace, dyadic]
  omega

theorem pointPlace_dyadic_le {n places count : Nat} (hcount : 0 < count)
    (h : n * Nat.pow 5 places < Nat.pow 10 count) :
    (dyadic n places).pointPlace ≤ (count : Int) - places := by
  have hwidth : width (n * Nat.pow 5 places) ≤ count := (width_le_iff hcount).mpr h
  simp only [Decimal.pointPlace, dyadic]
  omega

/-- Every magnitude is a multiple of the smallest one, and has as many places behind the point. The
number of places is kept apart from its powers, which are large. -/
theorem exists_places : ∃ places, places = 1074 ∧ valueDen = Nat.pow 2 places ∧
    ∀ m, exactDecimal m = dyadic (valueNum m) places := by
  generalize hplaces : (1074 : Nat) = places
  refine ⟨places, rfl, ?_, fun m => ?_⟩
  · unfold valueDen
    rewrite [hplaces]
    with_reducible rfl
  · have hexponent : (-1074 : Int) = -(places : Int) := by omega
    unfold exactDecimal dyadic
    rewrite [hplaces, hexponent]
    with_reducible rfl

/-- The smallest exact value has digits enough. -/
theorem exists_low {places : Nat} (hplaces : places = 1074) :
    ∃ low, low = 700 ∧ Nat.pow 10 low ≤ Nat.pow 5 places := by
  subst hplaces
  exact ⟨700, rfl, by decide +kernel⟩

/-- The largest exact value has no more digits than that. -/
theorem exists_high {places : Nat} (hplaces : places = 1074) :
    ∃ top high, top = 2045 ∧ high = 1400 ∧
      Nat.pow 2 (53 + top) * Nat.pow 5 places ≤ Nat.pow 10 high := by
  subst hplaces
  exact ⟨2045, 1400, rfl, rfl, by decide +kernel⟩

/-- The exact value of a magnitude reads back. -/
theorem nearestDecimal_exactDecimal {m : Nat} (h : m < infinity) :
    nearestDecimal (exactDecimal m) = m := by
  obtain ⟨places, hplaces, hden, hexact⟩ := exists_places
  rw [hexact]
  rcases Nat.eq_zero_or_pos (valueNum m) with hzero | hpos
  · have hdigits : (dyadic (valueNum m) places).digits = 0 := by rw [dyadic, hzero, Nat.zero_mul]
    rw [nearestDecimal, if_pos (.inl hdigits), valueNum_eq_zero hzero]
  · have hvalue := dyadic_value (valueNum m) places
    rw [← hden] at hvalue
    obtain ⟨low, hlow, hleft⟩ := exists_low hplaces
    obtain ⟨top, high, htop, hhigh, hright⟩ := exists_high hplaces
    have hdigits : (dyadic (valueNum m) places).digits ≠ 0 :=
      (Nat.mul_pos hpos (Nat.pow_pos (by decide))).ne'
    have hnum : valueNum m * Nat.pow 5 places < Nat.pow 10 high :=
      Nat.lt_of_lt_of_le (Nat.mul_lt_mul_of_pos_right
        (valueNum_lt (htop ▸ scale_le h)) (Nat.pow_pos (by decide))) hright
    have hlower := lt_pointPlace_dyadic hpos (by omega) hleft
    have hupper := pointPlace_dyadic_le (by omega) hnum
    rw [nearestDecimal, if_neg (not_or.mpr ⟨hdigits, by omega⟩), if_neg (by omega),
      nearest_congr (Decimal.denominator_pos _) valueDen_pos hvalue, nearest_value]

/-! ## The shortest decimal -/

theorem nearestDecimal_onGrid {m : Nat} {exponent : Int} {d : Decimal}
    (h : onGrid m exponent = some d) : nearestDecimal d = m := by
  simp only [onGrid, readsBack] at h
  split at h
  · next hdown hup =>
    obtain rfl := Option.some.inj h
    split
    · exact of_decide_eq_true hdown
    · exact of_decide_eq_true hup
  · next hdown _ =>
    obtain rfl := Option.some.inj h
    exact of_decide_eq_true hdown
  · next _ hup =>
    obtain rfl := Option.some.inj h
    exact of_decide_eq_true hup
  · cases h

theorem nearestDecimal_shortest {m : Nat} (h : m < infinity) : nearestDecimal (shortest m) = m := by
  rw [shortest, nearestDecimal_trim]
  cases hfound : (List.range' 1 17).findSome?
      fun (count : Nat) => onGrid m (valuePlace m - count) with
  | none => exact nearestDecimal_exactDecimal h
  | some d =>
    obtain ⟨count, _, hgrid⟩ := List.exists_of_findSome?_eq_some hfound
    exact nearestDecimal_onGrid hgrid

theorem ofMagnitude_magnitude (x : Binary64) : ofMagnitude x.isNegative x.magnitude = x := by
  have hbits :
      (if x.isNegative then Nat.pow 2 63 + x.magnitude else x.magnitude) = x.bits.toNat := by
    have hlt := x.bits.toNat_lt
    simp only [isNegative, magnitude, Nat.pow_eq, decide_eq_true_eq]
    split <;> omega
  rw [ofMagnitude, hbits, UInt64.ofNat_toNat]

/-- Every finite number is read back from its shortest decimal, by its bits. -/
theorem ofDecimal?_shortest {x : Binary64} (h : x.isFinite = true) :
    ofDecimal? x.isNegative (shortest x.magnitude) = some x := by
  have hfinite : x.magnitude < infinity := of_decide_eq_true h
  rw [ofDecimal?, nearestDecimal_shortest hfinite]
  simp only [if_pos hfinite, ofMagnitude_magnitude]

theorem shortest_clear (m : Nat) : (shortest m).digits = 0 → (shortest m).exponent = 0 := by
  rw [shortest]
  exact trim_clear _

end Binary64

end TreeQuery
