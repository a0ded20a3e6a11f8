import Mathlib.Algebra.Order.Field.Basic
import Mathlib.Data.Rat.Cast.Order
import Mathlib.Tactic.Linarith
import Mathlib.Tactic.Positivity
import Mathlib.Tactic.Ring
import VmInspect.Double.Basic

/-!
# What a double denotes

A finite double denotes a dyadic rational number, and all of these are multiples of the least positive one,
`2 ^ -1074`.  Counting in units of it turns questions about doubles into questions about integers:

* `Double.value`, `Double.units`, `Double.value_eq` — the number, and how many units it has.
* `Double.eq_of_units_eq` — a double is known by its units, up to the sign of zero.
* `Double.equal_iff` — so doubles are equal when they denote the same number.
* `Double.toInt?_eq_some_iff` — a double has an integer when it denotes one.
-/

namespace VmInspect

namespace Double

variable {x y : Double}

/-! ## Fields -/

theorem fraction_lt (x : Double) : x.fraction < 4503599627370496 := Nat.mod_lt _ (by decide)

/-- The bits are the three fields, one behind the other. -/
theorem toNat_bits (x : Double) :
    x.bits.toNat =
      (if x.negative then 9223372036854775808 else 0) + x.exponentField * 4503599627370496 +
        x.fraction := by
  have hlt := x.bits.toNat_lt
  unfold negative exponentField fraction signBit fractionRange exponentRange
  simp only [decide_eq_true_eq]
  split
  · omega
  · omega

/-- A double is known by its fields. -/
theorem eq_of_fields (hsign : x.negative = y.negative) (hexponent : x.exponentField = y.exponentField)
    (hfraction : x.fraction = y.fraction) : x = y := by
  have hbits : x.bits.toNat = y.bits.toNat := by
    rw [x.toNat_bits, y.toNat_bits, hsign, hexponent, hfraction]
  obtain ⟨bits⟩ := x
  obtain ⟨bits'⟩ := y
  exact congrArg Double.mk (UInt64.toNat_inj.1 hbits)

theorem isFinite_iff : x.isFinite = true ↔ x.exponentField ≠ 2047 := bne_iff_ne

theorem isNaN_of_isFinite (h : x.isFinite = true) : x.isNaN = false := by
  have hfield : (x.exponentField == specialExponent) = false :=
    beq_eq_false_iff_ne.2 (isFinite_iff.1 h)
  rw [isNaN, hfield, Bool.false_and]

/-! ## Units -/

/-- How far the mantissa is shifted from that of the least number. -/
def shift (x : Double) : Nat := x.exponentField - 1

/-- The number of units in one. -/
def unitsInOne : Nat := 2 ^ 1074

theorem unitsInOne_pos : 0 < unitsInOne := by
  unfold unitsInOne
  positivity

/-- The number of units, without the sign. -/
def magnitude (x : Double) : Nat := x.mantissa * 2 ^ x.shift

/-- The number of units. -/
def units (x : Double) : Int := if x.negative then -(x.magnitude : Int) else x.magnitude

theorem power_eq (x : Double) : x.power = (x.shift : Int) - 1074 := by
  unfold power shift
  split
  · omega
  · omega

theorem mantissa_lt (x : Double) : x.mantissa < 9007199254740992 := by
  have hlt := x.fraction_lt
  unfold mantissa fractionRange
  split
  · omega
  · omega

/-- A mantissa without the hidden bit is not shifted. -/
theorem shift_eq_zero (h : x.mantissa < 4503599627370496) : x.shift = 0 := by
  unfold mantissa fractionRange at h
  unfold shift
  split at h
  · omega
  · omega

/-- The last bits of the fraction are those of the mantissa. -/
theorem fraction_mod_two (x : Double) : x.fraction % 2 = x.mantissa % 2 := by
  unfold mantissa fractionRange
  split
  · rfl
  · omega

/-- Mantissa and shift are known by their product. -/
theorem mantissa_shift_of_magnitude_eq (h : x.magnitude = y.magnitude) (hpos : x.magnitude ≠ 0) :
    x.mantissa = y.mantissa ∧ x.shift = y.shift := by
  have hle : ∀ {x y : Double}, x.magnitude = y.magnitude → y.magnitude ≠ 0 → y.shift ≤ x.shift := by
    intro x y h hpos
    by_contra hlt
    rw [Nat.not_le] at hlt
    have hhidden : 4503599627370496 ≤ y.mantissa := by
      by_contra hsmall
      rw [shift_eq_zero (Nat.not_le.1 hsmall)] at hlt
      omega
    -- the hidden bit of the one with the greater shift is beyond all bits of the other
    have hpow : 2 ^ x.shift * 2 ≤ 2 ^ y.shift := by
      rw [← Nat.pow_succ]
      exact Nat.pow_le_pow_right (by decide) hlt
    have hx : x.magnitude < 9007199254740992 * 2 ^ x.shift :=
      Nat.mul_lt_mul_of_pos_right x.mantissa_lt (Nat.two_pow_pos _)
    have hy : 4503599627370496 * 2 ^ y.shift ≤ y.magnitude := Nat.mul_le_mul_right _ hhidden
    omega
  have hshift : x.shift = y.shift := Nat.le_antisymm (hle h.symm hpos) (hle h (h ▸ hpos))
  refine ⟨?_, hshift⟩
  unfold magnitude at h
  rw [hshift] at h
  exact Nat.eq_of_mul_eq_mul_right (Nat.two_pow_pos _) h

theorem natAbs_units (x : Double) : x.units.natAbs = x.magnitude := by
  unfold units
  split
  · exact Int.natAbs_neg _
  · rfl

theorem magnitude_eq_zero_iff : x.magnitude = 0 ↔ x.mantissa = 0 := by
  have hpos := Nat.two_pow_pos x.shift
  unfold magnitude
  rw [Nat.mul_eq_zero]
  omega

/-- The sign of a number other than zero is that of its units. -/
theorem negative_eq_of_units_eq (h : x.units = y.units) (hpos : x.magnitude ≠ 0) :
    x.negative = y.negative := by
  unfold units at h
  cases hx : x.negative with
  | false =>
    cases hy : y.negative with
    | false => rfl
    | true =>
      simp only [hx, hy, if_true, Bool.false_eq_true, if_false] at h
      omega
  | true =>
    cases hy : y.negative with
    | false =>
      simp only [hx, hy, if_true, Bool.false_eq_true, if_false] at h
      omega
    | true => rfl

/-- The two fields without the sign are known by mantissa and shift: a hidden bit shows that there is an
exponent. -/
theorem fields_eq_of_mantissa_eq (hmantissa : x.mantissa = y.mantissa) (hshift : x.shift = y.shift) :
    x.exponentField = y.exponentField ∧ x.fraction = y.fraction := by
  have hx := x.fraction_lt
  have hy := y.fraction_lt
  unfold shift at hshift
  unfold mantissa fractionRange at hmantissa
  split at hmantissa
  · split at hmantissa
    · omega
    · omega
  · split at hmantissa
    · omega
    · omega

/-- A double is known by its units, up to the sign of zero. -/
theorem eq_of_units_eq (h : x.units = y.units) : x = y ∨ x.mantissa = 0 ∧ y.mantissa = 0 := by
  have hmagnitude : x.magnitude = y.magnitude := by
    rw [← natAbs_units, ← natAbs_units, h]
  by_cases hzero : x.magnitude = 0
  · exact Or.inr ⟨magnitude_eq_zero_iff.1 hzero, magnitude_eq_zero_iff.1 (hmagnitude ▸ hzero)⟩
  · obtain ⟨hmantissa, hshift⟩ := mantissa_shift_of_magnitude_eq hmagnitude hzero
    obtain ⟨hexponent, hfraction⟩ := fields_eq_of_mantissa_eq hmantissa hshift
    exact Or.inl (eq_of_fields (negative_eq_of_units_eq h hzero) hexponent hfraction)

/-- Doubles with the same units have the same fraction. -/
theorem fraction_eq_of_units_eq (h : x.units = y.units) : x.fraction = y.fraction := by
  have hzero : ∀ {x : Double}, x.mantissa = 0 → x.fraction = 0 := by
    intro x hx
    unfold mantissa fractionRange at hx
    split at hx
    · exact hx
    · omega
  rcases eq_of_units_eq h with rfl | ⟨hx, hy⟩
  · rfl
  · rw [hzero hx, hzero hy]

/-! ## Values -/

/-- The number that a finite double denotes. -/
def value (x : Double) : ℚ := (if x.negative then -1 else 1) * x.mantissa * 2 ^ x.power

theorem value_eq (x : Double) : x.value = x.units / unitsInOne := by
  have hpower : (2 : ℚ) ^ x.power = 2 ^ x.shift / unitsInOne := by
    rw [power_eq, zpow_sub₀ two_ne_zero, zpow_natCast]
    norm_cast
  unfold value units magnitude
  rw [hpower]
  split
  · push_cast
    ring
  · push_cast
    ring

theorem unitsInOne_rat_pos : (0 : ℚ) < unitsInOne := Nat.cast_pos.2 unitsInOne_pos

theorem value_eq_iff : x.value = y.value ↔ x.units = y.units := by
  rw [value_eq, value_eq, div_left_inj' unitsInOne_rat_pos.ne', Int.cast_inj]

/-- A number is an integer if its units are those of as many ones. -/
theorem value_eq_intCast_iff {n : Int} : x.value = n ↔ x.units = n * unitsInOne := by
  rw [value_eq, div_eq_iff unitsInOne_rat_pos.ne']
  exact_mod_cast Iff.rfl

/-- How far a number is from an integer, in units. -/
theorem abs_value_sub (x : Double) (n : Int) :
    |x.value - n| = ((|x.units - n * unitsInOne| : Int) : ℚ) / unitsInOne := by
  have hsub : x.value - n = ((x.units - n * unitsInOne : Int) : ℚ) / unitsInOne := by
    rw [value_eq, Int.cast_sub, Int.cast_mul, sub_div, Int.cast_natCast,
      mul_div_cancel_right₀ _ unitsInOne_rat_pos.ne']
  rw [hsub, abs_div, abs_of_pos unitsInOne_rat_pos, Int.cast_abs]

/-! ## Equality -/

theorem isZero_iff : x.isZero = true ↔ x.isFinite = true ∧ x.mantissa = 0 := by
  unfold isZero
  rw [Bool.and_eq_true, beq_iff_eq]

theorem equal_eq_true_iff : x.equal y = true ↔
    x.isNaN = false ∧ y.isNaN = false ∧ (x = y ∨ x.isZero = true ∧ y.isZero = true) := by
  unfold equal
  rw [Bool.and_eq_true, Bool.and_eq_true, Bool.not_eq_true', Bool.not_eq_true', Bool.or_eq_true,
    Bool.and_eq_true, beq_iff_eq, and_assoc]

/-- A finite number is equal to the finite numbers of the same value, and to nothing else. -/
theorem equal_iff (hx : x.isFinite = true) :
    x.equal y = true ↔ y.isFinite = true ∧ y.value = x.value := by
  rw [equal_eq_true_iff, isZero_iff, isZero_iff, value_eq_iff]
  constructor
  · rintro ⟨-, -, rfl | ⟨⟨-, hzero⟩, hy, hzero'⟩⟩
    · exact ⟨hx, rfl⟩
    · refine ⟨hy, ?_⟩
      have hx0 := magnitude_eq_zero_iff.2 hzero
      have hy0 := magnitude_eq_zero_iff.2 hzero'
      rw [← natAbs_units, Int.natAbs_eq_zero] at hx0 hy0
      rw [hx0, hy0]
  · rintro ⟨hy, hunits⟩
    refine ⟨isNaN_of_isFinite hx, isNaN_of_isFinite hy, ?_⟩
    rcases eq_of_units_eq hunits.symm with heq | ⟨hzero, hzero'⟩
    · exact Or.inl heq
    · exact Or.inr ⟨⟨hx, hzero⟩, hy, hzero'⟩

theorem equal_comm (x y : Double) : x.equal y = y.equal x := by
  unfold equal
  rw [Bool.and_comm (!x.isNaN), Bool.and_comm x.isZero, BEq.comm]

theorem equal_trans {z : Double} (hxy : x.equal y = true) (hyz : y.equal z = true) :
    x.equal z = true := by
  obtain ⟨hx, -, hxy⟩ := equal_eq_true_iff.1 hxy
  obtain ⟨-, hz, hyz⟩ := equal_eq_true_iff.1 hyz
  refine equal_eq_true_iff.2 ⟨hx, hz, ?_⟩
  rcases hxy with rfl | ⟨hzero, hzero'⟩
  · exact hyz
  · rcases hyz with rfl | ⟨-, hzero''⟩
    · exact Or.inr ⟨hzero, hzero'⟩
    · exact Or.inr ⟨hzero, hzero''⟩

/-! ## Integers -/

/-- Shifting the mantissa to the right by the negative part of the power, or to the left by the positive
part, gives the magnitude in ones if no bit is lost. -/
theorem magnitude_eq_mul_iff {N : Nat} :
    x.mantissa % 2 ^ (-x.power).toNat = 0 ∧
        x.mantissa / 2 ^ (-x.power).toNat * 2 ^ x.power.toNat = N ↔
      x.magnitude = N * unitsInOne := by
  have hpower := x.power_eq
  unfold magnitude unitsInOne
  rcases Nat.le_total 1074 x.shift with hle | hle
  · obtain ⟨p, hshift⟩ := Nat.exists_eq_add_of_le' hle
    rw [show (-x.power).toNat = 0 by omega, show x.power.toNat = p by omega, hshift, Nat.pow_add,
      ← Nat.mul_assoc, Nat.mul_left_inj (Nat.two_pow_pos 1074).ne', Nat.pow_zero, Nat.mod_one,
      Nat.div_one]
    exact and_iff_right rfl
  · obtain ⟨k, hone⟩ := Nat.exists_eq_add_of_le' hle
    rw [show (-x.power).toNat = k by omega, show x.power.toNat = 0 by omega, hone, Nat.pow_add,
      ← Nat.mul_assoc, Nat.mul_left_inj (Nat.two_pow_pos x.shift).ne', Nat.pow_zero, Nat.mul_one]
    constructor
    · rintro ⟨hmod, rfl⟩
      exact (Nat.div_mul_cancel (Nat.dvd_of_mod_eq_zero hmod)).symm
    · intro hmantissa
      rw [hmantissa]
      exact ⟨Nat.mul_mod_left _ _, Nat.mul_div_cancel _ (Nat.two_pow_pos k)⟩

/-- An integer number of ones has a magnitude and the sign. -/
theorem units_eq_mul_iff {n : Int} :
    x.units = n * unitsInOne ↔
      x.magnitude = n.natAbs * unitsInOne ∧
        (if x.negative then -(n.natAbs : Int) else n.natAbs) = n := by
  have hpos : (0 : Int) < unitsInOne := Int.natCast_pos.2 unitsInOne_pos
  constructor
  · intro h
    have hmagnitude : x.magnitude = n.natAbs * unitsInOne := by
      rw [← natAbs_units, h, Int.natAbs_mul, Int.natAbs_natCast]
    refine ⟨hmagnitude, ?_⟩
    apply Int.eq_of_mul_eq_mul_right hpos.ne'
    rw [← h, units, hmagnitude]
    split
    · push_cast
      ring
    · push_cast
      ring
  · rintro ⟨hmagnitude, hsign⟩
    rw [← hsign, units, hmagnitude]
    split
    · push_cast
      ring
    · push_cast
      ring

/-- A finite number has an integer if it denotes one. -/
theorem toInt?_eq_some_iff {n : Int} :
    x.toInt? = some n ↔ x.isFinite = true ∧ x.value = n := by
  rw [value_eq_intCast_iff, units_eq_mul_iff, ← magnitude_eq_mul_iff]
  unfold toInt?
  by_cases hx : x.isFinite = true
  · rw [if_pos hx]
    by_cases hmod : x.mantissa % 2 ^ (-x.power).toNat = 0
    · refine (iff_of_eq (congrArg (· = some n) (if_pos hmod))).trans ?_
      rw [Option.some_inj]
      constructor
      · rintro rfl
        refine ⟨hx, ⟨hmod, ?_⟩, ?_⟩
        · split
          · exact ((Int.natAbs_neg _).trans (Int.natAbs_natCast _)).symm
          · rfl
        · split
          · rw [Int.natAbs_neg, Int.natAbs_natCast]
          · rfl
      · rintro ⟨-, ⟨-, hmagnitude⟩, hsign⟩
        rw [← hsign, ← hmagnitude]
        rfl
    · refine (iff_of_eq (congrArg (· = some n) (if_neg hmod))).trans ?_
      exact ⟨fun h => (nomatch h), fun h => absurd h.2.1.1 hmod⟩
  · rw [if_neg hx]
    exact ⟨fun h => (nomatch h), fun h => absurd h.1 hx⟩

end Double

end VmInspect
