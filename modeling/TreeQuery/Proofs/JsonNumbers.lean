import Mathlib.Data.List.Basic
import Mathlib.Data.List.TakeDrop
import Mathlib.Tactic.Ring
import TreeQuery.Json.Reader
import TreeQuery.Json.Writer
import TreeQuery.Proofs.ShortestDecimals

/-!
# JSON numbers written and read

A number is written as a sign, digits before the point, digits behind it, and a power of ten.

* `Stops`: what stands behind a number does not go on with it;
* `readMagnitude_spell`: the parts of a number are read back as they were spelled;
* `Decimal.exists_spelling`: the text of a decimal spells the decimal, with the zeros that are
  written out as digits of it;
* `readNumber_text`: a number comes back with what stands behind it, an integer by its value and a
  floating-point number by its bits.
-/

namespace TreeQuery

namespace Json

/-! ## Digits -/

/-- A run of digits. -/
structure IsDigits (digits : List Char) : Prop where
  ne_nil : digits ≠ []
  all : ∀ c ∈ digits, c.isDigit = true

/-- A run of digits that does not begin with a zero, or is the zero alone. -/
structure IsWhole (digits : List Char) : Prop extends IsDigits digits where
  zero : digits.head? = some '0' → digits = ['0']

theorem natOfDigits_eq (digits : List Char) : natOfDigits digits = Nat.ofDigitChars 10 digits 0 :=
  rfl

theorem natOfDigits_toDigits (n : Nat) : natOfDigits (Nat.toDigits 10 n) = n := by
  rw [natOfDigits_eq, Nat.ofDigitChars_ten_toDigits]

theorem isDigits_toDigits (n : Nat) : IsDigits (Nat.toDigits 10 n) where
  ne_nil := Nat.toDigits_ne_nil
  all _ hc := Nat.isDigit_of_mem_toDigits (by decide) (by decide) hc

theorem isWhole_zero : IsWhole ['0'] where
  ne_nil := List.cons_ne_nil _ _
  all c hc := by
    rw [List.mem_singleton.mp hc]
    decide
  zero _ := rfl

theorem head?_toDigits {n : Nat} (h : 0 < n) : (Nat.toDigits 10 n).head? ≠ some '0' := by
  induction n using Nat.strong_induction_on with
  | _ n ih =>
    rw [Nat.toDigits_eq_if (by decide)]
    by_cases hn : n < 10
    · rw [if_pos hn]
      have small : ∀ k < 10, 0 < k → [k.digitChar].head? ≠ some '0' := by decide
      exact small n hn h
    · rw [if_neg hn, List.head?_append_of_ne_nil _ Nat.toDigits_ne_nil]
      exact ih (n / 10) (by omega) (by omega)

theorem isWhole_toDigits (n : Nat) : IsWhole (Nat.toDigits 10 n) where
  toIsDigits := isDigits_toDigits n
  zero h := by
    rcases Nat.eq_zero_or_pos n with rfl | hn
    · rfl
    · exact absurd h (head?_toDigits hn)

theorem readDigits_append {digits rest : List Char} (h : IsDigits digits)
    (hrest : ∀ c ∈ rest.head?, c.isDigit = false) :
    readDigits (digits ++ rest) = some (digits, rest) := by
  have hspan : (digits ++ rest).span Char.isDigit = (digits, rest) := by
    rw [List.span_eq_takeWhile_dropWhile, List.takeWhile_append_of_pos h.all,
      List.dropWhile_append_of_pos h.all]
    cases rest with
    | nil => simp
    | cons c rest =>
      have hc : ¬ c.isDigit = true := by simp [hrest c rfl]
      simp [hc]
  obtain ⟨c, cs, hcs⟩ := List.exists_cons_of_ne_nil h.ne_nil
  rw [readDigits, hspan, hcs]

theorem readWhole_append {digits rest : List Char} (h : IsWhole digits)
    (hrest : ∀ c ∈ rest.head?, c.isDigit = false) :
    readWhole (digits ++ rest) = some (digits, rest) := by
  obtain ⟨c, cs, hcs⟩ := List.exists_cons_of_ne_nil h.ne_nil
  by_cases hc : c = '0'
  · have hzero : digits = ['0'] := h.zero (by rw [hcs, hc]; rfl)
    rw [hzero]
    rfl
  · rw [readWhole, readDigits_append h.toIsDigits hrest]
    intro rest' heq
    rw [hcs] at heq
    exact hc (List.cons.inj heq).1

/-! ## Parts of a number -/

/-- Whether a number goes on with a character, if the character stands behind it. -/
def goesOn (c : Char) : Bool := c.isDigit || c = '.' || c = 'e' || c = 'E'

/-- What stands behind a number does not go on with it. -/
def Stops (rest : List Char) : Prop := ∀ c ∈ rest.head?, goesOn c = false

theorem stops_nil : Stops [] := fun _ h => (Option.not_mem_none _ h).elim

theorem stops_cons {c : Char} (h : goesOn c = false) (rest : List Char) : Stops (c :: rest) := by
  intro d hd
  cases hd
  exact h

def fractionText : Option (List Char) → List Char
  | none => []
  | some digits => '.' :: digits

def powerText : Option Int → List Char
  | none => []
  | some power => 'e' :: Decimal.exponentText power

/-- A number without its sign, part by part. -/
def spell (whole : List Char) (fraction : Option (List Char)) (power : Option Int) : List Char :=
  whole ++ (fractionText fraction ++ powerText power)

theorem readPower_exponentText (power : Int) {rest : List Char} (h : Stops rest) :
    readPower (Decimal.exponentText power ++ rest) = some (power, rest) := by
  have hrest : ∀ c ∈ rest.head?, c.isDigit = false := by
    intro c hc
    have := h c hc
    simp only [goesOn, Bool.or_eq_false_iff] at this
    exact this.1.1.1
  have hdigits := readDigits_append (isDigits_toDigits power.natAbs) hrest
  rw [Decimal.exponentText]
  split
  · next hneg =>
    rw [List.cons_append, readPower, hdigits, Option.map_some]
    dsimp only
    rw [natOfDigits_toDigits]
    congr 2
    omega
  · next hpos =>
    rw [List.cons_append, readPower, hdigits, Option.map_some]
    dsimp only
    rw [natOfDigits_toDigits]
    congr 2
    omega

theorem readExponent_append (power : Option Int) {rest : List Char} (h : Stops rest) :
    readExponent (powerText power ++ rest) = some (power, rest) := by
  cases power with
  | some power =>
    rw [powerText, List.cons_append, readExponent, readPower_exponentText power h]
    rfl
  | none =>
    rw [powerText, List.nil_append]
    cases rest with
    | nil => rfl
    | cons c rest =>
      have hc := h c rfl
      simp only [goesOn, Bool.or_eq_false_iff, decide_eq_false_iff_not] at hc
      rw [readExponent]
      · exact fun _ he => hc.1.2 (List.cons.inj he).1
      · exact fun _ he => hc.2 (List.cons.inj he).1

/-- A power, or the end of a number, does not go on with the digits in front of it. -/
theorem head?_powerText (power : Option Int) {rest : List Char} (h : Stops rest) :
    ∀ c ∈ (powerText power ++ rest).head?, c.isDigit = false ∧ c ≠ '.' := by
  intro c hc
  cases power with
  | some power =>
    cases hc
    decide
  | none =>
    have := h c hc
    simp only [goesOn, Bool.or_eq_false_iff, decide_eq_false_iff_not] at this
    exact ⟨this.1.1.1, this.1.1.2⟩

theorem readFraction_append {fraction : Option (List Char)}
    (hf : ∀ digits ∈ fraction, IsDigits digits)
    {tail : List Char} (h : ∀ c ∈ tail.head?, c.isDigit = false ∧ c ≠ '.') :
    readFraction (fractionText fraction ++ tail) = some (fraction, tail) := by
  cases fraction with
  | some digits =>
    rw [fractionText, List.cons_append, readFraction,
      readDigits_append (hf digits rfl) fun c hc => (h c hc).1]
    rfl
  | none =>
    rw [fractionText, List.nil_append]
    cases tail with
    | nil => rfl
    | cons c tail =>
      rw [readFraction]
      exact fun _ he => (h c rfl).2 (List.cons.inj he).1

/-- The parts of a number are read back as they were spelled. -/
theorem readMagnitude_spell (negative : Bool) {whole : List Char} {fraction : Option (List Char)}
    (power : Option Int) (hw : IsWhole whole) (hf : ∀ digits ∈ fraction, IsDigits digits)
    {rest : List Char} (h : Stops rest) :
    readMagnitude negative (spell whole fraction power ++ rest) =
      some (Number.ofParts? negative whole fraction power, rest) := by
  have hpower := head?_powerText power h
  have hfraction :
      ∀ c ∈ (fractionText fraction ++ (powerText power ++ rest)).head?, c.isDigit = false := by
    intro c hc
    cases fraction with
    | some digits =>
      cases hc
      decide
    | none => exact (hpower c hc).1
  rw [spell, List.append_assoc, List.append_assoc, readMagnitude, readWhole_append hw hfraction]
  simp [readFraction_append hf hpower, readExponent_append power h]

/-- The parts of a number whose value is a decimal. -/
structure Spells (d : Decimal) (whole : List Char) (fraction : Option (List Char))
    (power : Option Int) : Prop where
  isWhole : IsWhole whole
  isDigits : ∀ digits ∈ fraction, IsDigits digits
  isDecimal : fraction.isSome ∨ power.isSome
  digits : natOfDigits (whole ++ fraction.getD []) = d.digits
  exponent : power.getD 0 - (fraction.getD []).length = d.exponent

theorem Spells.ofParts? {d : Decimal} {whole : List Char} {fraction : Option (List Char)}
    {power : Option Int} (h : Spells d whole fraction power) (negative : Bool) :
    Number.ofParts? negative whole fraction power =
      (Binary64.ofDecimal? negative d).map .float := by
  obtain ⟨digits, exponent⟩ := d
  obtain rfl := h.digits
  obtain rfl := h.exponent
  cases fraction with
  | some fraction => rfl
  | none =>
    cases power with
    | some power => rfl
    | none => exact absurd h.isDecimal (by decide)

end Json

/-! ## The text of a decimal -/

namespace Decimal

open Json

/-- The decimal that the text of a decimal spells: zeros that are written out are digits of it. -/
def spelled (d : Decimal) : Decimal :=
  if d.isPlain ∧ 0 ≤ d.exponent then ⟨d.digits * 10 ^ (d.exponent.toNat + 1), -1⟩ else d

variable {d : Decimal}

theorem length_toDigits (d : Decimal) :
    ((Nat.toDigits 10 d.digits).length : Int) = d.pointPlace - d.exponent := by
  rw [pointPlace, width]
  omega

theorem isDigit_zeros (n : Nat) : ∀ c ∈ zeros n, c.isDigit = true := by
  intro c hc
  rw [List.eq_of_mem_replicate hc]
  decide

/-- All zeros of the exponent are written out, and one more behind the point. -/
theorem spells_of_exponent_nonneg (hzero : d.digits = 0 → d.exponent = 0)
    (hplain : d.isPlain = true) (hexp : 0 ≤ d.exponent) :
    Spells d.spelled (Nat.toDigits 10 d.digits ++ zeros d.exponent.toNat) (some ['0']) none := by
  have hdigits := isWhole_toDigits d.digits
  rw [spelled, if_pos ⟨hplain, hexp⟩]
  refine ⟨⟨⟨?_, ?_⟩, ?_⟩, ?_, .inl rfl, ?_, rfl⟩
  · exact List.append_ne_nil_of_left_ne_nil hdigits.ne_nil _
  · intro c hc
    exact (List.mem_append.mp hc).elim (hdigits.all c) (isDigit_zeros _ c)
  · intro h
    rw [List.head?_append_of_ne_nil _ hdigits.ne_nil] at h
    have hnil : d.digits = 0 := by
      by_contra hne
      exact head?_toDigits (Nat.pos_of_ne_zero hne) h
    rw [hzero hnil, hnil]
    rfl
  · rintro digits ⟨⟩
    exact isWhole_zero.toIsDigits
  · rw [Option.getD_some, natOfDigits_eq, Nat.ofDigitChars_append, Nat.ofDigitChars_append,
      Nat.ofDigitChars_ten_toDigits, zeros, Nat.ofDigitChars_replicate_zero]
    change 10 * (10 ^ d.exponent.toNat * d.digits) + 0 = d.digits * 10 ^ (d.exponent.toNat + 1)
    ring

/-- The point stands between the digits. -/
theorem spells_of_pointPlace_pos (hexp : ¬ 0 ≤ d.exponent) (hplace : 0 < d.pointPlace) :
    Spells d.spelled ((Nat.toDigits 10 d.digits).take d.pointPlace.toNat)
      (some ((Nat.toDigits 10 d.digits).drop d.pointPlace.toNat)) none := by
  have hdigits := isWhole_toDigits d.digits
  have hlength := d.length_toDigits
  have front : ((Nat.toDigits 10 d.digits).take d.pointPlace.toNat).head? =
      (Nat.toDigits 10 d.digits).head? := by
    rw [List.head?_take, if_neg (by omega)]
  rw [spelled, if_neg fun h => hexp h.2]
  refine ⟨⟨⟨?_, ?_⟩, ?_⟩, ?_, .inl rfl, ?_, ?_⟩
  · intro h
    have := congrArg List.length h
    rw [List.length_take, List.length_nil] at this
    omega
  · intro c hc
    exact hdigits.all c (List.mem_of_mem_take hc)
  · intro h
    rw [front] at h
    have hone := congrArg List.length (hdigits.zero h)
    rw [List.length_singleton] at hone
    omega
  · rintro digits ⟨⟩
    refine ⟨?_, ?_⟩
    · intro h
      have := congrArg List.length h
      rw [List.length_drop, List.length_nil] at this
      omega
    · intro c hc
      exact hdigits.all c (List.mem_of_mem_drop hc)
  · rw [Option.getD_some, List.take_append_drop, natOfDigits_toDigits]
  · rw [Option.getD_some, List.length_drop, Option.getD_none]
    omega

/-- The point stands in front of the digits, with zeros between them. -/
theorem spells_of_pointPlace_nonpos (hexp : ¬ 0 ≤ d.exponent) (hplace : ¬ 0 < d.pointPlace) :
    Spells d.spelled ['0'] (some (zeros (-d.pointPlace).toNat ++ Nat.toDigits 10 d.digits))
      none := by
  have hdigits := isDigits_toDigits d.digits
  have hlength := d.length_toDigits
  rw [spelled, if_neg fun h => hexp h.2]
  refine ⟨isWhole_zero, ?_, .inl rfl, ?_, ?_⟩
  · rintro digits ⟨⟩
    refine ⟨List.append_ne_nil_of_right_ne_nil _ hdigits.ne_nil, ?_⟩
    intro c hc
    exact (List.mem_append.mp hc).elim (isDigit_zeros _ c) (hdigits.all c)
  · rw [Option.getD_some, natOfDigits_eq, Nat.ofDigitChars_append, Nat.ofDigitChars_append, zeros,
      Nat.ofDigitChars_replicate_zero]
    change Nat.ofDigitChars 10 (Nat.toDigits 10 d.digits) (10 ^ (-d.pointPlace).toNat * 0) = _
    rw [Nat.mul_zero, Nat.ofDigitChars_ten_toDigits]
  · rw [Option.getD_some, Option.getD_none, List.length_append, zeros, List.length_replicate]
    omega

/-- One digit stands before the point, and a power of ten behind the digits. -/
theorem exists_scientific_spelling (hplain : d.isPlain = false) :
    ∃ whole fraction power, d.scientific = spell whole fraction power ∧
      Spells d.spelled whole fraction power := by
  have hdigits := isDigits_toDigits d.digits
  have hlength := d.length_toDigits
  obtain ⟨c, cs, hcs⟩ := List.exists_cons_of_ne_nil hdigits.ne_nil
  have hvalue := natOfDigits_toDigits d.digits
  have hwhole : IsWhole [c] := by
    refine ⟨⟨List.cons_ne_nil c [], fun c' hc' => hdigits.all c' ?_⟩, ?_⟩
    · rw [hcs, List.mem_singleton.mp hc']
      exact List.mem_cons_self
    · rintro ⟨⟩
      rfl
  rw [hcs] at hlength hvalue
  rw [scientific, spelled, if_neg fun h => Bool.false_ne_true (hplain.symm.trans h.1), hcs]
  cases cs with
  | nil =>
    refine ⟨[c], none, some (d.pointPlace - 1), rfl, hwhole,
      fun _ h => (Option.not_mem_none _ h).elim, .inr rfl, hvalue, ?_⟩
    simp only [List.length_singleton] at hlength
    simp only [Option.getD_some, Option.getD_none, List.length_nil]
    omega
  | cons c' cs =>
    have hrest : ∀ digits ∈ some (c' :: cs), IsDigits digits := by
      rintro digits ⟨⟩
      refine ⟨List.cons_ne_nil c' cs, fun x hx => hdigits.all x ?_⟩
      rw [hcs]
      exact List.mem_cons_of_mem c hx
    refine ⟨[c], some (c' :: cs), some (d.pointPlace - 1), rfl, hwhole, hrest, .inl rfl, hvalue, ?_⟩
    rw [List.length_cons] at hlength
    rw [Option.getD_some, Option.getD_some]
    omega

/-- The text of a decimal spells it. -/
theorem exists_spelling (hzero : d.digits = 0 → d.exponent = 0) :
    ∃ whole fraction power, d.text = spell whole fraction power ∧
      Spells d.spelled whole fraction power := by
  cases hplain : d.isPlain with
  | false =>
    rw [text, hplain]
    exact exists_scientific_spelling hplain
  | true =>
    rw [text, hplain, if_pos rfl, plain]
    by_cases hexp : 0 ≤ d.exponent
    · refine ⟨_, _, _, ?_, spells_of_exponent_nonneg hzero hplain hexp⟩
      rw [if_pos hexp]
      rfl
    · rw [if_neg hexp]
      by_cases hplace : 0 < d.pointPlace
      · refine ⟨_, _, _, ?_, spells_of_pointPlace_pos hexp hplace⟩
        rw [if_pos hplace, spell, powerText, List.append_nil]
        rfl
      · refine ⟨_, _, _, ?_, spells_of_pointPlace_nonpos hexp hplace⟩
        rw [if_neg hplace, spell, powerText, List.append_nil]
        rfl

/-- The zeros that are written out do not change what a decimal is read as. -/
theorem ofDecimal?_spelled (negative : Bool) (d : Decimal) :
    Binary64.ofDecimal? negative d.spelled = Binary64.ofDecimal? negative d := by
  by_cases hplain : d.isPlain ∧ 0 ≤ d.exponent
  · have hshift : d.spelled = d.shift (d.exponent.toNat + 1) := by
      have hexponent : (-1 : Int) = d.exponent - (d.exponent.toNat + 1 : Nat) := by omega
      rw [spelled, if_pos hplain, shift, ← hexponent]
    rw [Binary64.ofDecimal?, hshift, Binary64.nearestDecimal_shift, Binary64.ofDecimal?]
  · rw [spelled, if_neg hplain]

end Decimal

/-! ## The text of a number -/

namespace Json

/-- A number whose text is that of a number. -/
def Number.IsFinite : Number → Prop
  | .integer _ => True
  | .float x => x.isFinite = true

/-- The sign of a number with the text of its magnitude. -/
def signed (negative : Bool) (cs : List Char) : List Char := if negative then '-' :: cs else cs

theorem head_spell {whole : List Char} (h : IsWhole whole) (fraction : Option (List Char))
    (power : Option Int) :
    ∃ c cs, spell whole fraction power = c :: cs ∧ c.isDigit = true := by
  obtain ⟨c, cs, hcs⟩ := List.exists_cons_of_ne_nil h.ne_nil
  refine ⟨c, cs ++ (fractionText fraction ++ powerText power), ?_, ?_⟩
  · rw [spell, hcs, List.cons_append]
  · exact h.all c (hcs ▸ List.mem_cons_self)

theorem readNumber_signed (negative : Bool) {whole : List Char} (h : IsWhole whole)
    (fraction : Option (List Char)) (power : Option Int) (rest : List Char) :
    readNumber (signed negative (spell whole fraction power) ++ rest) =
      readMagnitude negative (spell whole fraction power ++ rest) := by
  cases negative with
  | true => rfl
  | false =>
    obtain ⟨c, cs, hcs, hdigit⟩ := head_spell h fraction power
    change readNumber (spell whole fraction power ++ rest) = _
    rw [hcs, List.cons_append, readNumber]
    intro rest' heq
    obtain rfl := (List.cons.inj heq).1
    exact absurd hdigit (by decide)

theorem Number.text_integer (n : Int) :
    (Number.integer n).text = signed (n < 0) (spell (Nat.toDigits 10 n.natAbs) none none) := by
  cases n with
  | ofNat m =>
    have hsign : ¬ (m : Int) < 0 := Int.not_lt.mpr (Int.natCast_nonneg m)
    simp [text, signed, hsign, spell, fractionText, powerText, toString, Int.repr,
      Nat.repr_eq_ofList_toDigits]
  | negSucc m =>
    have hsign : Int.negSucc m < 0 := Int.negSucc_lt_zero m
    simp [text, signed, hsign, spell, fractionText, powerText, toString, Int.repr,
      Nat.repr_eq_ofList_toDigits]

theorem Number.ofParts?_toDigits (n : Int) :
    Number.ofParts? (n < 0) (Nat.toDigits 10 n.natAbs) none none = some (.integer n) := by
  by_cases hn : n < 0
  · have hne : n.natAbs ≠ 0 := by omega
    have habs : -(n.natAbs : Int) = n := by omega
    rw [decide_eq_true hn, Number.ofParts?, natOfDigits_toDigits, if_pos rfl, if_neg hne, habs]
  · have habs : (n.natAbs : Int) = n := by omega
    rw [decide_eq_false hn, Number.ofParts?, natOfDigits_toDigits, if_neg Bool.false_ne_true, habs]

/-- The text of a number is a sign and the parts of the number. -/
theorem Number.exists_spelling {n : Number} (h : n.IsFinite) :
    ∃ negative whole fraction power, n.text = signed negative (spell whole fraction power) ∧
      IsWhole whole ∧ (∀ digits ∈ fraction, IsDigits digits) ∧
      Number.ofParts? negative whole fraction power = some n := by
  cases n with
  | integer n =>
    exact ⟨_, _, none, none, Number.text_integer n, isWhole_toDigits n.natAbs,
      fun _ hdigits => (Option.not_mem_none _ hdigits).elim, Number.ofParts?_toDigits n⟩
  | float x =>
    obtain ⟨whole, fraction, power, htext, hspells⟩ :=
      Decimal.exists_spelling (Binary64.shortest_clear x.magnitude)
    refine ⟨x.isNegative, whole, fraction, power, ?_, hspells.isWhole, hspells.isDigits, ?_⟩
    · have hfinite : x.isFinite = true := h
      rw [Number.text, if_pos hfinite, htext, signed]
    · rw [hspells.ofParts?, Decimal.ofDecimal?_spelled, Binary64.ofDecimal?_shortest h,
        Option.map_some]

/-- A number is read back from its text. -/
theorem readNumber_text {n : Number} (h : n.IsFinite) {rest : List Char} (hrest : Stops rest) :
    readNumber (n.text ++ rest) = some (some n, rest) := by
  obtain ⟨negative, whole, fraction, power, htext, hwhole, hfraction, hparts⟩ :=
    Number.exists_spelling h
  rw [htext, readNumber_signed negative hwhole,
    readMagnitude_spell negative power hwhole hfraction hrest, hparts]

/-- The text of a number begins with a sign or a digit. -/
theorem Number.head_text {n : Number} (h : n.IsFinite) :
    ∃ c cs, n.text = c :: cs ∧ (c = '-' ∨ c.isDigit = true) := by
  obtain ⟨negative, whole, fraction, power, htext, hwhole, _, _⟩ := Number.exists_spelling h
  rw [htext]
  cases negative with
  | true => exact ⟨'-', _, rfl, .inl rfl⟩
  | false =>
    obtain ⟨c, cs, hcs, hc⟩ := head_spell hwhole fraction power
    exact ⟨c, cs, hcs, .inr hc⟩

end Json

end TreeQuery
