/-!
# Places in the code

The place of an instruction is its number in the code, counted from zero.  Places are kept in words
of 64 bits.  Where distances between places matter, the word is read with a sign, so that a place in
the upper half lies before the first instruction.
-/

namespace VmInspect

namespace Place

/-- The number of places. -/
def count : Nat := 18446744073709551616

/-- The place as a number with a sign. -/
def signed (pc : Nat) : Int := Int.bmod pc count

/-- The place that a number with a sign stands for. -/
def ofInt (n : Int) : Nat := (n % count).toNat

/-- A place in the lower half is its own number. -/
theorem signed_of_lt {pc : Nat} (h : pc < 9223372036854775808) : signed pc = pc := by
  rw [signed, count, Int.bmod_def]
  split <;> omega

/-- A place in the upper half lies before the first instruction. -/
theorem signed_neg {pc : Nat} (h : 9223372036854775808 ≤ pc) (hpc : pc < count) :
    signed pc < 0 := by
  rw [count] at hpc
  rw [signed, count, Int.bmod_def]
  split <;> omega

end Place

end VmInspect
