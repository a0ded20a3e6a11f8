import VmInspect.Proofs.Double.Rounding
import VmInspect.Value.Integer

/-!
# Equality of values

Equality looks across the two representations of numbers: an integer is rounded before it is compared with
a float.  So a float is equal to all integers of which it is the nearest double, although only one of them
is its value, and two different integers can be equal to one float.

* `Value.integerEqualsFloat_iff` — which floats are equal to an integer.
* `Value.equal_across` — where equality is exact, that it is symmetric, and where it is transitive.
* `Value.equal_not_trans` — three numbers for which it is not.
-/

namespace VmInspect

namespace Value

open Double (FiftyThreeBits)

variable {n : Int64} {x y : Double} {a b c : Value}

/-! ## An integer and a float -/

theorem log2_natAbs_toInt (n : Int64) : n.toInt.natAbs.log2 < 64 := by
  have hlow := n.le_toInt
  have hhigh := n.toInt_lt
  by_cases hzero : n.toInt.natAbs = 0
  · rw [hzero]
    decide
  · rw [Nat.log2_lt hzero]
    omega

/-- An integer is equal to the double nearest to it: that has no fractional part. -/
theorem integerEqualsFloat_iff : integerEqualsFloat n x = true ↔ x.IsNearest n.toInt := by
  have hofInt := Double.isNearest_ofInt (log2_natAbs_toInt n)
  unfold integerEqualsFloat
  rw [Bool.and_eq_true, Double.equal_iff hofInt.finite, ← Double.isNearest_iff (log2_natAbs_toInt n)]
  refine and_iff_left_of_imp fun hnearest => ?_
  obtain ⟨k, hk⟩ := Double.exists_value_ofInt (log2_natAbs_toInt n)
  obtain ⟨hfinite, hvalue⟩ := (Double.isNearest_iff (log2_natAbs_toInt n)).1 hnearest
  rw [Double.toInt?_eq_some_iff.2 ⟨hfinite, hvalue.trans hk⟩]
  rfl

theorem fitInteger?_eq_some_iff {k : Int} : fitInteger? k = some n ↔ k = n.toInt := by
  have hlow := n.le_toInt
  have hhigh := n.toInt_lt
  unfold fitInteger? inIntegerRange
  constructor
  · intro h
    split at h
    case isTrue hrange =>
      rw [Bool.and_eq_true, decide_eq_true_eq, decide_eq_true_eq] at hrange
      rw [← Option.some.inj h, Int64.toInt_ofInt_of_le hrange.1 hrange.2]
    case isFalse => exact (nomatch h)
  · rintro rfl
    rw [if_pos, Int64.ofInt_toInt]
    rw [Bool.and_eq_true, decide_eq_true_eq, decide_eq_true_eq]
    exact ⟨hlow, hhigh⟩

/-- A float converts to the integer that is its value. -/
theorem integerOfFloat?_eq_some_iff :
    integerOfFloat? x = some n ↔ x.isFinite = true ∧ x.value = n.toInt := by
  unfold integerOfFloat?
  rw [Option.bind_eq_some_iff, ← Double.toInt?_eq_some_iff]
  constructor
  · rintro ⟨k, hk, hfit⟩
    exact fitInteger?_eq_some_iff.1 hfit ▸ hk
  · exact fun h => ⟨_, h, fitInteger?_eq_some_iff.2 rfl⟩

/-- Equality with an integer is exact if the integer is not rounded. -/
theorem integerEqualsFloat_exact_iff :
    (∀ x, integerEqualsFloat n x = true ↔ x.isFinite = true ∧ x.value = n.toInt) ↔
      FiftyThreeBits n.toInt.natAbs := by
  have hofInt := Double.isNearest_ofInt (log2_natAbs_toInt n)
  constructor
  · intro h
    exact Double.fiftyThreeBits_of_value_eq ((h _).1 (integerEqualsFloat_iff.2 hofInt)).2
  · intro h x
    rw [integerEqualsFloat_iff, Double.isNearest_iff (log2_natAbs_toInt n),
      Double.value_ofInt_eq (log2_natAbs_toInt n) h]

/-! ## All values -/

theorem equal_comm (a b : Value) : a.equal b = b.equal a := by
  cases a <;> cases b <;> first
    | rfl
    | exact Double.equal_comm _ _
    | exact BEq.comm

/-- What an integer is equal to. -/
theorem integer_equal_iff :
    (integer n).equal c = true ↔ integer n = c ∨ ∃ x, float x = c ∧ x.IsNearest n.toInt := by
  cases c with
  | integer m => simp [equal]
  | float x => simp [equal, integerEqualsFloat_iff]
  | _ => simp [equal]

/-- What a float is equal to. -/
theorem float_equal_iff :
    (float x).equal c = true ↔
      (∃ n, integer n = c ∧ x.IsNearest n.toInt) ∨ ∃ y, float y = c ∧ x.equal y = true := by
  cases c with
  | integer n => simp [equal, integerEqualsFloat_iff]
  | float y => simp [equal]
  | _ => simp [equal]

/-- A value that is no number is equal to itself only. -/
theorem equal_iff_of_not_isNumber (h : b.isNumber = false) : b.equal c = true ↔ b = c := by
  cases b with
  | integer n => exact (nomatch h)
  | float x => exact (nomatch h)
  | _ => cases c <;> simp [equal]

/-- Two different integers, and a float between them. -/
def MeetInFloat (a b c : Value) : Prop :=
  ∃ i x j, a = integer i ∧ b = float x ∧ c = integer j ∧ i ≠ j

/-- Equality is transitive unless two different integers are compared with one float. -/
theorem equal_trans_iff (hab : a.equal b = true) (hbc : b.equal c = true) :
    a.equal c = true ↔ ¬ MeetInFloat a b c := by
  rw [equal_comm] at hab
  cases hb : b.isNumber with
  | false =>
    have hmeet : ¬ MeetInFloat a b c := by
      rintro ⟨i, x, j, -, rfl, -⟩
      exact (nomatch hb)
    rw [equal_iff_of_not_isNumber hb] at hab
    exact iff_of_true (hab ▸ hbc) hmeet
  | true =>
    cases b with
    | integer n =>
      have hmeet : ¬ MeetInFloat a (integer n) c := fun ⟨i, x, j, _, h, _⟩ => (nomatch h)
      refine iff_of_true ?_ hmeet
      rcases integer_equal_iff.1 hab with rfl | ⟨x, rfl, hx⟩
      · exact hbc
      · rcases integer_equal_iff.1 hbc with rfl | ⟨y, rfl, hy⟩
        · exact float_equal_iff.2 (Or.inl ⟨n, rfl, hx⟩)
        · exact float_equal_iff.2 (Or.inr ⟨y, rfl, hx.equal (log2_natAbs_toInt n) hy⟩)
    | float x =>
      rcases float_equal_iff.1 hab with ⟨i, rfl, hi⟩ | ⟨y, rfl, hy⟩
      · rcases float_equal_iff.1 hbc with ⟨j, rfl, hj⟩ | ⟨z, rfl, hz⟩
        · refine (beq_iff_eq : (i == j) = true ↔ i = j).trans ⟨?_, fun hmeet => ?_⟩
          · rintro rfl ⟨_, _, _, hi', -, hj', hne⟩
            exact hne (integer.inj (hi'.symm.trans hj'))
          · by_contra hne
            exact hmeet ⟨i, x, j, rfl, rfl, rfl, hne⟩
        · refine iff_of_true ?_ fun ⟨_, _, _, _, _, h, _⟩ => (nomatch h)
          exact integer_equal_iff.2 (Or.inr ⟨z, rfl, hi.congr (log2_natAbs_toInt i) hz⟩)
      · refine iff_of_true ?_ fun ⟨_, _, _, h, _⟩ => (nomatch h)
        rcases float_equal_iff.1 hbc with ⟨j, rfl, hj⟩ | ⟨z, rfl, hz⟩
        · exact float_equal_iff.2 (Or.inl ⟨j, rfl, hj.congr (log2_natAbs_toInt j) hy⟩)
        · exact Double.equal_trans (Double.equal_comm x y ▸ hy) hz
    | _ => exact (nomatch hb)

/-- No integer, or one that is not rounded. -/
def Exact : Value → Prop
  | integer n => FiftyThreeBits n.toInt.natAbs
  | _ => True

/-- Integers that are not rounded are not equal to one float if they differ. -/
theorem not_meetInFloat (ha : a.Exact) (hc : c.Exact) (hab : a.equal b = true)
    (hbc : b.equal c = true) : ¬ MeetInFloat a b c := by
  rintro ⟨i, x, j, rfl, rfl, rfl, hne⟩
  obtain ⟨-, hi⟩ := (integerEqualsFloat_exact_iff.2 ha x).1 hab
  obtain ⟨-, hj⟩ := (integerEqualsFloat_exact_iff.2 hc x).1 hbc
  exact hne (Int64.toInt_inj.1 (Int.cast_inj.1 (hi.symm.trans hj)))

/-- **Equality across the representations of numbers.**  An integer is equal to a float, in either order, if
the float is the double nearest to it, while a float converts to an integer only if that is its value.  The
two agree for an integer if it is not rounded.  Equality is symmetric; it is transitive unless two different
integers are compared with one float, which does not happen if both are not rounded. -/
theorem equal_across (n : Int64) (a b c : Value) :
    (∀ x, ((integer n).equal (float x) = true ↔ x.IsNearest n.toInt) ∧
      ((float x).equal (integer n) = true ↔ x.IsNearest n.toInt) ∧
      ((float x).toInteger? = some n ↔ x.isFinite = true ∧ x.value = n.toInt)) ∧
    ((∀ x, (integer n).equal (float x) = true ↔ x.isFinite = true ∧ x.value = n.toInt) ↔
      (integer n).Exact) ∧
    a.equal b = b.equal a ∧
    (a.equal b = true → b.equal c = true →
      (a.equal c = true ↔ ¬ MeetInFloat a b c) ∧ (a.Exact → c.Exact → a.equal c = true)) := by
  refine ⟨fun x => ⟨?_, ?_, ?_⟩, ?_, equal_comm a b, fun hab hbc => ⟨?_, fun ha hc => ?_⟩⟩
  · exact integerEqualsFloat_iff
  · exact integerEqualsFloat_iff
  · exact integerOfFloat?_eq_some_iff
  · exact integerEqualsFloat_exact_iff
  · exact equal_trans_iff hab hbc
  · exact (equal_trans_iff hab hbc).2 (not_meetInFloat ha hc hab hbc)

/-- The power `2 ^ 53` is not rounded, and it is the float to which the integer behind it is rounded.  The
two zeros are equal to the integer zero, and so to each other. -/
theorem equal_across_rounded :
    (∀ x, (integer 9007199254740992).equal (float x) = true ↔
      x.isFinite = true ∧ x.value = (9007199254740992 : Int64).toInt) ∧
      ((integer 9007199254740993).equal (integer 9007199254740992) = true ↔
        ¬ MeetInFloat (integer 9007199254740993) (float ⟨0x4340000000000000⟩)
          (integer 9007199254740992)) ∧
      (float ⟨0x0000000000000000⟩).equal (float ⟨0x8000000000000000⟩) = true := by
  have hbits : (integer 9007199254740992).Exact := ⟨1, 53, by decide, by decide⟩
  obtain ⟨-, hexact, -, hzeros⟩ := equal_across 9007199254740992 (float ⟨0x0000000000000000⟩)
    (integer 0) (float ⟨0x8000000000000000⟩)
  obtain ⟨-, -, -, hmeet⟩ := equal_across 9007199254740993 (integer 9007199254740993)
    (float ⟨0x4340000000000000⟩) (integer 9007199254740992)
  refine ⟨hexact.2 hbits, ?_, ?_⟩
  · exact (hmeet (by decide +kernel) (by decide +kernel)).1
  · exact (hzeros (by decide +kernel) (by decide +kernel)).2 trivial trivial

/-- The integer behind `2 ^ 53` is equal to that float, which is not its value, and through it to an integer
that it is not equal to. -/
theorem equal_not_trans :
    (integer 9007199254740993).equal (float ⟨0x4340000000000000⟩) = true ∧
      (float ⟨0x4340000000000000⟩).equal (integer 9007199254740992) = true ∧
      (integer 9007199254740993).equal (integer 9007199254740992) = false ∧
      (float ⟨0x4340000000000000⟩).toInteger? = some 9007199254740992 ∧
      Double.value ⟨0x4340000000000000⟩ ≠ (9007199254740993 : Int64).toInt := by
  refine ⟨by decide +kernel, by decide +kernel, by decide, by decide +kernel, fun hvalue => ?_⟩
  have hsame : (9007199254740992 : Int64) = 9007199254740993 :=
    Option.some.inj ((show integerOfFloat? ⟨0x4340000000000000⟩ = some 9007199254740992 by
      decide +kernel).symm.trans (integerOfFloat?_eq_some_iff.2 ⟨by decide, hvalue⟩))
  exact absurd hsame (by decide)

end Value

end VmInspect
