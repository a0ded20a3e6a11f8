/-!
# Character classes by ranges

A class of characters is a list of closed ranges of code points in ascending order.
-/

namespace VmInspect.Text

/-- Closed ranges of code points. -/
abbrev Ranges := List (Nat × Nat)

/-- Whether a code point lies in one of the ranges. -/
def Ranges.holds (ranges : Ranges) (c : Char) : Bool :=
  ranges.any fun r => decide (r.1 ≤ c.toNat) && decide (c.toNat ≤ r.2)

end VmInspect.Text
