import Mathlib.Algebra.Order.Group.Unbundled.Int
import VmInspect.Proofs.Double.Value

/-!
# Rounding an integer to a double

An integer becomes the double nearest to it, and of two nearest ones that with the even fraction.
Around an integer all doubles are multiples of one power of two, the integer's `spacing`, and rounding
chooses among these; the doubles that are no multiples of it are nearer to zero, and further away.

* `Double.RoundsTo` — a multiple of a step nearest to a number, and what follows of it alone.
* `Double.units_ofInt` — `Double.ofInt` is such a multiple.
* `Double.isNearest_ofInt`, `Double.isNearest_iff` — it is nearest to the integer, and no other double is.
* `Double.fiftyThreeBits_of_value_eq`, `Double.value_ofInt_eq` — the integers that are not rounded.

Integers have fewer than 65 bits throughout: a number beyond the greatest double is not rounded to a finite
one.
-/

namespace VmInspect

namespace Double

variable {x y : Double} {n : Int}

/-! ## The nearest multiple -/

/-- The multiple `m * S` is nearest to `X`; halfway between two multiples it is the even one. -/
structure RoundsTo (X S m : Int) : Prop where
  near : 2 * |X - m * S| ≤ S
  even : 2 * |X - m * S| = S → m % 2 = 0

namespace RoundsTo

variable {X S m k : Int}

theorem neg (h : RoundsTo X S m) : RoundsTo (-X) S (-m) := by
  have habs : |-X - -m * S| = |X - m * S| := by
    rw [← abs_neg]
    ring_nf
  refine ⟨habs ▸ h.near, fun htie => ?_⟩
  have heven := h.even (habs ▸ htie)
  omega

theorem scale {c : Int} (hc : 0 < c) (h : RoundsTo X S m) : RoundsTo (X * c) (S * c) m := by
  have habs : 2 * |X * c - m * (S * c)| = 2 * |X - m * S| * c := by
    rw [← mul_assoc m, ← sub_mul, abs_mul, abs_of_pos hc, mul_assoc]
  constructor
  · rw [habs]
    exact Int.mul_le_mul_of_nonneg_right h.near hc.le
  · rw [habs]
    exact fun htie => h.even (Int.eq_of_mul_eq_mul_right hc.ne' htie)

/-- Two multiples are as many steps apart as their factors. -/
theorem gap_le (hS : 0 < S) : |k - m| * S ≤ |X - m * S| + |X - k * S| := by
  have hgap : |k - m| * S = |(X - m * S) - (X - k * S)| := by
    rw [show (X - m * S) - (X - k * S) = (k - m) * S by ring, abs_mul, abs_of_pos hS]
  rw [hgap]
  exact abs_sub _ _

/-- No multiple is nearer. -/
theorem le_multiple (hS : 0 < S) (h : RoundsTo X S m) (k : Int) : |X - m * S| ≤ |X - k * S| := by
  by_cases hk : k = m
  · rw [hk]
  · have hgap := gap_le (X := X) (k := k) (m := m) hS
    have hstep : S ≤ |k - m| * S :=
      le_mul_of_one_le_left hS.le (Int.one_le_abs (sub_ne_zero.2 hk))
    have hnear := h.near
    omega

/-- Of two multiples that are as near, the rounded one is even and the other is odd. -/
theorem parity_of_tie (hS : 0 < S) (h : RoundsTo X S m) (htie : |X - k * S| = |X - m * S|)
    (hne : k ≠ m) : m % 2 = 0 ∧ k % 2 = 1 := by
  have hgap := gap_le (X := X) (k := k) (m := m) hS
  have hnear := h.near
  have hnext : |k - m| = 1 := by
    refine le_antisymm ?_ (Int.one_le_abs (sub_ne_zero.2 hne))
    exact Int.le_of_mul_le_mul_right (by omega) hS
  have heven := h.even (by rw [hnext] at hgap; omega)
  rcases (abs_eq Int.one_nonneg).1 hnext with hk | hk
  · omega
  · omega

/-- A multiple is rounded to itself. -/
theorem eq_of_dvd (hS : 0 < S) (h : RoundsTo X S m) (hdvd : S ∣ X) : m * S = X := by
  obtain ⟨k, rfl⟩ := hdvd
  have hle := h.le_multiple hS k
  rw [Int.mul_comm S k, sub_self, abs_zero] at hle
  rw [Int.mul_comm S k]
  exact (sub_eq_zero.1 (abs_nonpos_iff.1 hle)).symm

/-- The rounded number is at most as far away as the multiples between the number and zero. -/
theorem le_abs_sub (hS : 0 < S) (h : RoundsTo X S m) {B : Int} (hB : B * S ≤ |X|) :
    |X - m * S| ≤ |X| - B * S := by
  rcases abs_cases X with ⟨habs, -⟩ | ⟨habs, -⟩
  · have hle := h.le_multiple hS B
    rw [abs_of_nonneg (show 0 ≤ X - B * S by omega)] at hle
    omega
  · have hle := h.le_multiple hS (-B)
    rw [Int.neg_mul, abs_of_nonpos (show X - -(B * S) ≤ 0 by omega)] at hle
    omega

/-- The multiples below the number are below the rounded one. -/
theorem le_factor (hS : 0 < S) (h : RoundsTo X S m) (hk : k * S ≤ X) : k ≤ m := by
  by_contra hlt
  have hmul : (m + 1) * S ≤ k * S := Int.mul_le_mul_of_nonneg_right (by omega) hS.le
  have hle := le_abs_self (X - m * S)
  have hnear := h.near
  rw [Int.add_mul] at hmul
  omega

/-- The multiples above the number are above the rounded one. -/
theorem factor_le (hS : 0 < S) (h : RoundsTo X S m) (hk : X ≤ k * S) : m ≤ k := by
  have hneg := h.neg.le_factor hS (show -k * S ≤ -X by rw [Int.neg_mul]; omega)
  omega

end RoundsTo

theorem roundsTo_roundToEven (a : Nat) {d : Nat} (hd : 0 < d) :
    RoundsTo a d (roundToEven a d) := by
  have hdiv : (a : Int) = (a / d : Nat) * d + (a % d : Nat) := by
    exact_mod_cast (Nat.div_add_mod' a d).symm
  have hlt := Nat.mod_lt a hd
  have hbelow : |(a : Int) - (a / d : Nat) * d| = (a % d : Nat) := by
    rw [abs_of_nonneg (by omega)]
    omega
  have habove : |(a : Int) - (a / d + 1 : Nat) * d| = d - (a % d : Nat) := by
    rw [Int.natCast_succ, Int.add_mul, abs_of_nonpos (by omega)]
    omega
  unfold roundToEven
  dsimp only
  split
  · constructor
    · rw [hbelow]
      omega
    · rw [hbelow]
      omega
  · split
    · constructor
      · rw [habove]
        omega
      · rw [habove]
        omega
    · rcases Nat.mod_two_eq_zero_or_one (a / d) with heven | hodd
      · rw [heven]
        refine ⟨?_, fun _ => ?_⟩
        · rw [Nat.add_zero, hbelow]
          omega
        · omega
      · rw [hodd]
        refine ⟨?_, fun _ => ?_⟩
        · rw [habove]
          omega
        · omega

/-! ## The doubles around a power of two -/

/-- A double with a smaller shift is below all numbers that need the hidden bit and a greater one. -/
theorem magnitude_lt_of_shift_lt {s : Nat} (h : x.shift < s) :
    x.magnitude < 4503599627370496 * 2 ^ s := by
  have hmagnitude : x.magnitude < 9007199254740992 * 2 ^ x.shift :=
    Nat.mul_lt_mul_of_pos_right x.mantissa_lt (Nat.two_pow_pos _)
  have hpow : 2 ^ x.shift * 2 ≤ 2 ^ s := by
    rw [← Nat.pow_succ]
    exact Nat.pow_le_pow_right Nat.two_pos h
  omega

/-- A double is a multiple of a power of two, or it is nearer to zero than all multiples that need the
hidden bit. -/
theorem dvd_units_or_lt (x : Double) (s : Nat) :
    ((2 ^ s : Nat) : Int) ∣ x.units ∨ |x.units| < 4503599627370496 * ((2 ^ s : Nat) : Int) := by
  rw [Int.natCast_dvd, Int.abs_eq_natAbs, natAbs_units]
  rcases Nat.lt_or_ge x.shift s with hlt | hle
  · exact Or.inr (by exact_mod_cast magnitude_lt_of_shift_lt hlt)
  · exact Or.inl ((Nat.pow_dvd_pow 2 hle).mul_left _)

/-- A double that is an odd multiple of a power of two, and needs the hidden bit, has an odd fraction. -/
theorem fraction_odd {s : Nat} {k : Int} (hunits : x.units = k * (2 ^ s : Nat))
    (hhidden : 4503599627370496 ≤ |k|) (hodd : k % 2 = 1) : x.fraction % 2 = 1 := by
  have hmagnitude : x.magnitude = k.natAbs * 2 ^ s := by
    rw [← natAbs_units, hunits, Int.natAbs_mul, Int.natAbs_natCast]
  rw [Int.abs_eq_natAbs] at hhidden
  have hshift : s ≤ x.shift := by
    by_contra hlt
    have hbelow := magnitude_lt_of_shift_lt (Nat.not_le.1 hlt)
    have habove : 4503599627370496 * 2 ^ s ≤ k.natAbs * 2 ^ s :=
      Nat.mul_le_mul_right _ (by omega)
    omega
  obtain ⟨i, hi⟩ := Nat.exists_eq_add_of_le' hshift
  have hfactor : x.mantissa * 2 ^ i = k.natAbs := by
    apply Nat.eq_of_mul_eq_mul_right (Nat.two_pow_pos s)
    rw [← hmagnitude, magnitude, hi, Nat.pow_add, Nat.mul_assoc]
  rw [fraction_mod_two]
  cases i with
  | zero => omega
  | succ i =>
    rw [Nat.pow_succ, ← Nat.mul_assoc] at hfactor
    omega

/-! ## Codes -/

theorem fields_ofCode (sign : Bool) {code : Nat} (hcode : code < 9223372036854775808) :
    (ofCode sign code).negative = sign ∧
      (ofCode sign code).exponentField = code / 4503599627370496 ∧
      (ofCode sign code).fraction = code % 4503599627370496 := by
  have hbits : (ofCode sign code).bits.toNat =
      if sign then 9223372036854775808 + code else code := by
    unfold ofCode signBit
    apply UInt64.toNat_ofNat_of_lt'
    show _ < 18446744073709551616
    split
    · omega
    · omega
  unfold negative exponentField fraction signBit fractionRange exponentRange
  rw [hbits]
  cases sign with
  | false =>
    rw [if_neg Bool.false_ne_true, decide_eq_false_iff_not]
    omega
  | true =>
    rw [if_pos rfl, decide_eq_true_eq]
    omega

/-- The code of a shift with a mantissa.  A mantissa with one bit too many is shifted once more. -/
theorem ofCode_spec (sign : Bool) {s m : Nat} (hs : s < 2045) (hlow : 4503599627370496 ≤ m)
    (hhigh : m ≤ 9007199254740992) :
    (ofCode sign (s * 4503599627370496 + m)).isFinite = true ∧
      (ofCode sign (s * 4503599627370496 + m)).units =
        (if sign then -(m : Int) else m) * (2 ^ s : Nat) ∧
      (ofCode sign (s * 4503599627370496 + m)).fraction % 2 = m % 2 := by
  obtain ⟨hsign, hexponent, hfraction⟩ :=
    fields_ofCode sign (show s * 4503599627370496 + m < 9223372036854775808 by omega)
  generalize ofCode sign (s * 4503599627370496 + m) = x at *
  have hmagnitude : x.magnitude = m * 2 ^ s := by
    unfold magnitude mantissa shift fractionRange
    rw [if_neg (by omega), hexponent, hfraction]
    rcases Nat.lt_or_ge m 9007199254740992 with hlt | hge
    · rw [show (s * 4503599627370496 + m) / 4503599627370496 - 1 = s by omega,
        show 4503599627370496 + (s * 4503599627370496 + m) % 4503599627370496 = m by omega]
    · obtain rfl : m = 9007199254740992 := by omega
      rw [show (s * 4503599627370496 + 9007199254740992) / 4503599627370496 - 1 = s + 1 by omega,
        show (s * 4503599627370496 + 9007199254740992) % 4503599627370496 = 0 by omega, Nat.pow_succ]
      omega
  refine ⟨isFinite_iff.2 (by omega), ?_, by omega⟩
  unfold units
  rw [hsign, hmagnitude]
  split
  · push_cast
    ring
  · push_cast
    rfl

/-! ## Integers -/

/-- The distance of the doubles around an integer, in units. -/
def spacing (n : Int) : Nat := 2 ^ (n.natAbs.log2 + 1022)

theorem spacing_pos (n : Int) : (0 : Int) < spacing n := Int.natCast_pos.2 (Nat.two_pow_pos _)

/-- The spacing is that of the numbers with as many bits as the integer. -/
theorem hidden_mul_spacing (n : Int) :
    4503599627370496 * spacing n = 2 ^ n.natAbs.log2 * unitsInOne := by
  unfold spacing unitsInOne
  rw [show (4503599627370496 : Nat) = 2 ^ 52 by rfl, ← Nat.pow_add, ← Nat.pow_add,
    show 52 + (n.natAbs.log2 + 1022) = n.natAbs.log2 + 1074 by omega]

/-- An integer needs the hidden bit. -/
theorem hidden_mul_spacing_le (hn : n ≠ 0) :
    4503599627370496 * spacing n ≤ n.natAbs * unitsInOne := by
  rw [hidden_mul_spacing]
  exact Nat.mul_le_mul_right _ (Nat.log2_self_le (Int.natAbs_ne_zero.2 hn))

theorem lt_mul_spacing (n : Int) :
    n.natAbs * unitsInOne < 9007199254740992 * spacing n := by
  have hlt : n.natAbs * unitsInOne < 2 ^ (n.natAbs.log2 + 1) * unitsInOne :=
    Nat.mul_lt_mul_of_pos_right Nat.lt_log2_self unitsInOne_pos
  have hidden := hidden_mul_spacing n
  rw [Nat.pow_succ, Nat.mul_right_comm, ← hidden] at hlt
  omega

theorem binaryExponent_one {N : Nat} (hN : N ≠ 0) : binaryExponent N 1 = N.log2 := by
  have hone : Nat.log2 1 = 0 := by decide
  unfold binaryExponent
  dsimp only
  rw [hone, Int.natCast_zero, sub_zero, if_pos]
  rw [Int.toNat_natCast, Int.toNat_neg_natCast, Nat.one_mul]
  exact (Nat.log2_self_le hN).trans (Nat.mul_one N).ge

/-- The mantissa of a natural number. -/
def roundedMantissa (N : Nat) : Nat := roundToEven (N * 2 ^ (52 - N.log2)) (2 ^ (N.log2 - 52))

theorem roundsTo_roundedMantissa (n : Int) :
    RoundsTo (n.natAbs * unitsInOne) (spacing n) (roundedMantissa n.natAbs) := by
  have hround := roundsTo_roundToEven (n.natAbs * 2 ^ (52 - n.natAbs.log2))
    (d := 2 ^ (n.natAbs.log2 - 52)) (Nat.two_pow_pos _)
  have hscale := hround.scale (c := (2 ^ (1074 - (52 - n.natAbs.log2)) : Nat))
    (Int.natCast_pos.2 (Nat.two_pow_pos _))
  rw [← Int.natCast_mul, ← Int.natCast_mul, Nat.mul_assoc, ← pow_add, ← pow_add,
    show 52 - n.natAbs.log2 + (1074 - (52 - n.natAbs.log2)) = 1074 by omega,
    show n.natAbs.log2 - 52 + (1074 - (52 - n.natAbs.log2)) = n.natAbs.log2 + 1022 by omega,
    Int.natCast_mul] at hscale
  unfold unitsInOne spacing roundedMantissa
  exact hscale

theorem le_roundedMantissa (hn : n ≠ 0) : 4503599627370496 ≤ roundedMantissa n.natAbs := by
  have hle := (roundsTo_roundedMantissa n).le_factor (spacing_pos n) (k := 4503599627370496)
    (by exact_mod_cast hidden_mul_spacing_le hn)
  omega

theorem roundedMantissa_le (n : Int) : roundedMantissa n.natAbs ≤ 9007199254740992 := by
  have hle := (roundsTo_roundedMantissa n).factor_le (spacing_pos n) (k := 9007199254740992)
    (by exact_mod_cast (lt_mul_spacing n).le)
  omega

theorem magnitudeCode_one (hn : n ≠ 0) (hlog : n.natAbs.log2 < 64) :
    magnitudeCode n.natAbs 1 =
      (n.natAbs.log2 + 1022) * 4503599627370496 + roundedMantissa n.natAbs := by
  have hle := roundedMantissa_le n
  have hN := Int.natAbs_ne_zero.2 hn
  unfold magnitudeCode
  rw [if_neg hN, binaryExponent_one hN]
  dsimp only
  rw [max_eq_left (by omega), Nat.one_mul]
  rw [show (-((n.natAbs.log2 : Int) - 52)).toNat = 52 - n.natAbs.log2 by omega,
    show ((n.natAbs.log2 : Int) - 52).toNat = n.natAbs.log2 - 52 by omega,
    show ((n.natAbs.log2 : Int) - 52 + 1074).toNat = n.natAbs.log2 + 1022 by omega]
  have hlast : (n.natAbs.log2 + 1022) * 4503599627370496 + roundedMantissa n.natAbs ≤
      infinityCode := by
    unfold infinityCode specialExponent fractionRange
    omega
  exact min_eq_left hlast

/-- The double of an integer is the multiple of the spacing to which the integer is rounded. -/
theorem units_ofInt (hn : n ≠ 0) (hlog : n.natAbs.log2 < 64) :
    (ofInt n).isFinite = true ∧
      ∃ m : Int, (ofInt n).units = m * spacing n ∧ RoundsTo (n * unitsInOne) (spacing n) m ∧
        (ofInt n).fraction % 2 = m.natAbs % 2 := by
  have hround := roundsTo_roundedMantissa n
  obtain ⟨hfinite, hunits, hfraction⟩ := ofCode_spec (decide (n < 0)) (s := n.natAbs.log2 + 1022)
    (by omega) (le_roundedMantissa hn) (roundedMantissa_le n)
  rw [← magnitudeCode_one hn hlog] at hfinite hunits hfraction
  refine ⟨hfinite, _, hunits, ?_, ?_⟩
  · split
    case isTrue hneg =>
      have hn : n = -(n.natAbs : Int) := by
        have := of_decide_eq_true hneg
        omega
      have hneg := hround.neg
      rwa [← Int.neg_mul, ← hn] at hneg
    case isFalse hpos =>
      have hn : (n.natAbs : Int) = n := by
        have := of_decide_eq_false (Bool.not_eq_true _ ▸ hpos)
        omega
      rwa [hn] at hround
  · refine hfraction.trans ?_
    split
    · rw [Int.natAbs_neg, Int.natAbs_natCast]
    · rw [Int.natAbs_natCast]

/-- The integers that are rounded exactly are the multiples of their spacing. -/
theorem value_ofInt_eq_of_dvd (hn : n ≠ 0) (hlog : n.natAbs.log2 < 64)
    (hdvd : (spacing n : Int) ∣ n * unitsInOne) : (ofInt n).value = n := by
  obtain ⟨-, m, hunits, hround, -⟩ := units_ofInt hn hlog
  rw [value_eq_intCast_iff, hunits]
  exact hround.eq_of_dvd (spacing_pos n) hdvd

theorem value_ofInt_zero : (ofInt 0).value = (0 : Int) := by
  rw [value_eq_intCast_iff, Int.zero_mul]
  decide

/-- The double of an integer denotes an integer. -/
theorem exists_value_ofInt (hlog : n.natAbs.log2 < 64) : ∃ k : Int, (ofInt n).value = k := by
  by_cases hn : n = 0
  · exact ⟨0, hn ▸ value_ofInt_zero⟩
  · -- spacing and one are powers of two: either rounding has no effect, or it keeps whole ones
    rcases Nat.le_total (n.natAbs.log2 + 1022) 1074 with hle | hle
    · have hdvd : spacing n ∣ unitsInOne := pow_dvd_pow 2 hle
      exact ⟨n, value_ofInt_eq_of_dvd hn hlog ((Int.natCast_dvd_natCast.2 hdvd).mul_left n)⟩
    · obtain ⟨-, m, hunits, -⟩ := units_ofInt hn hlog
      have hdvd : unitsInOne ∣ spacing n := pow_dvd_pow 2 hle
      obtain ⟨k, hk⟩ := Int.natCast_dvd_natCast.2 hdvd
      exact ⟨m * k, value_eq_intCast_iff.2 (by rw [hunits, hk]; ring)⟩

/-! ## The nearest double -/

/-- A finite double as near to an integer as any other; of two that are as near it has the even
fraction. -/
structure IsNearest (x : Double) (n : Int) : Prop where
  finite : x.isFinite = true
  nearest : ∀ y : Double, y.isFinite = true → |x.value - n| ≤ |y.value - n|
  even : ∀ y : Double, y.isFinite = true → y.value ≠ x.value → |y.value - n| = |x.value - n| →
    x.fraction % 2 = 0

theorem abs_value_sub_le_iff : |x.value - n| ≤ |y.value - n| ↔
    |n * unitsInOne - x.units| ≤ |n * unitsInOne - y.units| := by
  rw [abs_value_sub, abs_value_sub, div_le_div_iff_of_pos_right unitsInOne_rat_pos, Int.cast_le,
    abs_sub_comm, abs_sub_comm y.units]

theorem abs_value_sub_eq_iff : |x.value - n| = |y.value - n| ↔
    |n * unitsInOne - x.units| = |n * unitsInOne - y.units| := by
  rw [le_antisymm_iff, abs_value_sub_le_iff, abs_value_sub_le_iff, ← le_antisymm_iff]

/-- A double as near as the rounded multiple is a multiple itself, and needs the hidden bit. -/
theorem multiple_of_near (hn : n ≠ 0) {m : Int} (hround : RoundsTo (n * unitsInOne) (spacing n) m)
    (hnear : |n * unitsInOne - x.units| ≤ |n * unitsInOne - m * spacing n|) :
    ∃ k : Int, x.units = k * spacing n ∧ 4503599627370496 ≤ |k| := by
  have hS := spacing_pos n
  have hhidden : 4503599627370496 * (spacing n : Int) ≤ |n * unitsInOne| := by
    rw [Int.abs_eq_natAbs, Int.natAbs_mul, Int.natAbs_natCast]
    exact_mod_cast hidden_mul_spacing_le hn
  have hle := hround.le_abs_sub hS hhidden
  have htriangle := abs_sub_abs_le_abs_sub (n * unitsInOne) x.units
  have hfar : 4503599627370496 * (spacing n : Int) ≤ |x.units| := by omega
  rcases dvd_units_or_lt x (n.natAbs.log2 + 1022) with ⟨k, hk⟩ | hlt
  · have hmultiple : x.units = k * spacing n := hk.trans (Int.mul_comm _ _)
    refine ⟨k, hmultiple, ?_⟩
    rw [hmultiple, abs_mul, abs_of_pos hS] at hfar
    exact Int.le_of_mul_le_mul_right hfar hS
  · exact absurd hfar (not_le.2 hlt)

/-- No double is nearer to an integer than the one to which it is rounded. -/
theorem abs_value_ofInt_sub_le (hlog : n.natAbs.log2 < 64) (x : Double) :
    |(ofInt n).value - n| ≤ |x.value - n| := by
  by_cases hn : n = 0
  · subst hn
    rw [value_ofInt_zero, sub_self, abs_zero]
    exact abs_nonneg _
  obtain ⟨-, m, hunits, hround, -⟩ := units_ofInt hn hlog
  rw [abs_value_sub_le_iff, hunits]
  by_contra hlt
  obtain ⟨k, hk, -⟩ := multiple_of_near hn hround (not_le.1 hlt).le
  rw [hk] at hlt
  exact hlt (hround.le_multiple (spacing_pos n) k)

/-- Of two doubles that are as near the one with the even fraction is chosen. -/
theorem fraction_of_tie (hlog : n.natAbs.log2 < 64) (hne : x.value ≠ (ofInt n).value)
    (htie : |x.value - n| = |(ofInt n).value - n|) :
    (ofInt n).fraction % 2 = 0 ∧ x.fraction % 2 = 1 := by
  by_cases hn : n = 0
  · subst hn
    rw [value_ofInt_zero, sub_self, abs_zero, abs_eq_zero, sub_eq_zero] at htie
    exact absurd (htie.trans value_ofInt_zero.symm) hne
  obtain ⟨-, m, hunits, hround, hfraction⟩ := units_ofInt hn hlog
  rw [abs_value_sub_eq_iff, hunits] at htie
  obtain ⟨k, hk, hhidden⟩ := multiple_of_near hn hround htie.le
  have hkm : k ≠ m := by
    rintro rfl
    exact hne (value_eq_iff.2 (hk.trans hunits.symm))
  rw [hk] at htie
  obtain ⟨heven, hodd⟩ := hround.parity_of_tie (spacing_pos n) htie hkm
  exact ⟨by omega, fraction_odd hk hhidden hodd⟩

theorem isNearest_ofInt (hlog : n.natAbs.log2 < 64) : (ofInt n).IsNearest n where
  finite := by
    by_cases hn : n = 0
    · subst hn
      decide
    · exact (units_ofInt hn hlog).1
  nearest y _ := abs_value_ofInt_sub_le hlog y
  even _ _ hne htie := (fraction_of_tie hlog hne htie).1

/-- The double of an integer is the only one nearest to it. -/
theorem isNearest_iff (hlog : n.natAbs.log2 < 64) :
    x.IsNearest n ↔ x.isFinite = true ∧ x.value = (ofInt n).value := by
  have hofInt := isNearest_ofInt hlog
  constructor
  · intro hx
    refine ⟨hx.finite, ?_⟩
    by_contra hne
    have htie : |x.value - n| = |(ofInt n).value - n| :=
      le_antisymm (hx.nearest _ hofInt.finite) (hofInt.nearest _ hx.finite)
    -- both fractions would have to be even
    have heven := hx.even _ hofInt.finite (Ne.symm hne) htie.symm
    have hodd := (fraction_of_tie hlog hne htie).2
    omega
  · rintro ⟨hfinite, hvalue⟩
    have hfraction := fraction_eq_of_units_eq (value_eq_iff.1 hvalue)
    refine ⟨hfinite, ?_, ?_⟩
    · rw [hvalue]
      exact hofInt.nearest
    · rw [hvalue, hfraction]
      exact hofInt.even

theorem IsNearest.equal (hlog : n.natAbs.log2 < 64) (hx : x.IsNearest n) (hy : y.IsNearest n) :
    x.equal y = true := by
  rw [isNearest_iff hlog] at hx hy
  exact (equal_iff hx.1).2 ⟨hy.1, hy.2.trans hx.2.symm⟩

theorem IsNearest.congr (hlog : n.natAbs.log2 < 64) (hx : x.IsNearest n) (hxy : x.equal y = true) :
    y.IsNearest n := by
  rw [isNearest_iff hlog] at hx ⊢
  obtain ⟨hy, hvalue⟩ := (equal_iff hx.1).1 hxy
  exact ⟨hy, hvalue.trans hx.2⟩

/-! ## Integers that are not rounded -/

/-- A number of at most 53 bits, followed by zeros. -/
def FiftyThreeBits (N : Nat) : Prop := ∃ m k : Nat, N = m * 2 ^ k ∧ m < 2 ^ 53

/-- A double denotes an integer of at most 53 bits, followed by zeros. -/
theorem fiftyThreeBits_of_value_eq (h : x.value = n) : FiftyThreeBits n.natAbs := by
  have hmagnitude := (units_eq_mul_iff.1 (value_eq_intCast_iff.1 h)).1
  unfold magnitude unitsInOne at hmagnitude
  have hmantissa := x.mantissa_lt
  rcases Nat.le_total 1074 x.shift with hle | hle
  · obtain ⟨k, hshift⟩ := Nat.exists_eq_add_of_le' hle
    rw [hshift, pow_add, ← Nat.mul_assoc x.mantissa] at hmagnitude
    exact ⟨x.mantissa, k, (mul_right_cancel₀ (pow_ne_zero _ two_ne_zero) hmagnitude).symm, hmantissa⟩
  · obtain ⟨k, hone⟩ := Nat.exists_eq_add_of_le' hle
    rw [hone, pow_add, ← Nat.mul_assoc, Nat.mul_left_inj (Nat.two_pow_pos _).ne'] at hmagnitude
    have hle : n.natAbs * 1 ≤ n.natAbs * 2 ^ k := Nat.mul_le_mul_left _ (Nat.two_pow_pos k)
    exact ⟨n.natAbs, 0, by omega, by omega⟩

/-- An integer of at most 53 bits, followed by zeros, is not rounded. -/
theorem value_ofInt_eq (hlog : n.natAbs.log2 < 64) (h : FiftyThreeBits n.natAbs) :
    (ofInt n).value = n := by
  by_cases hn : n = 0
  · exact hn ▸ value_ofInt_zero
  obtain ⟨m, k, hmk, hm⟩ := h
  apply value_ofInt_eq_of_dvd hn hlog
  have hunits : n.natAbs * unitsInOne = m * 2 ^ (k + 1074) := by
    rw [hmk, unitsInOne, Nat.mul_assoc, pow_add]
  have hhidden := hidden_mul_spacing_le hn
  -- the spacing leaves 53 bits of the integer, so it is at most the last of them
  have hpow : 2 ^ (n.natAbs.log2 + 1022) < 2 ^ (k + 1074 + 1) := by
    have hlt : m * 2 ^ (k + 1074) < 2 ^ 53 * 2 ^ (k + 1074) :=
      Nat.mul_lt_mul_of_pos_right hm (Nat.two_pow_pos _)
    rw [hunits, spacing] at hhidden
    rw [pow_succ 2 (k + 1074)]
    generalize 2 ^ (n.natAbs.log2 + 1022) = spacing at *
    generalize 2 ^ (k + 1074) = last at *
    omega
  have hle : n.natAbs.log2 + 1022 ≤ k + 1074 :=
    Nat.le_of_lt_succ ((Nat.pow_lt_pow_iff_right (by decide)).1 hpow)
  rw [Int.natCast_dvd, Int.natAbs_mul, Int.natAbs_natCast, hunits]
  exact (pow_dvd_pow 2 hle).mul_left m

end Double

end VmInspect
