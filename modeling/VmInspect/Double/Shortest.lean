import VmInspect.Double.Basic

/-!
# The shortest decimal that reads back

Among all decimals that round to a given finite number, the one with the fewest digits is chosen,
and among those the one nearest to the number.  The search asks `Double.ofRatio` itself whether a
candidate reads back, so the answer is right by the definition of rounding.
-/

namespace VmInspect

/-- The decimal `digits * 10 ^ exponent`. -/
structure Decimal where
  digits : Nat
  exponent : Int
deriving DecidableEq, Repr, Inhabited

namespace Decimal

/-- The decimal as a ratio of naturals. -/
def numerator (d : Decimal) : Nat := d.digits * Nat.pow 10 d.exponent.toNat

def denominator (d : Decimal) : Nat := Nat.pow 10 (-d.exponent).toNat

/-- The decimal digits from the most significant one. -/
def digitChars (d : Decimal) : List Char := Nat.toDigits 10 d.digits

/-- The exponent of the leading digit. -/
def leadingExponent (d : Decimal) : Int := d.exponent + d.digitChars.length - 1

/-- Trailing zeros move into the exponent. -/
def strip (d : Decimal) : Decimal :=
  if d.digits = 0 then ⟨0, 0⟩
  else if d.digits % 10 = 0 then strip ⟨d.digits / 10, d.exponent + 1⟩
  else d
termination_by d.digits
decreasing_by
  omega

end Decimal

namespace Double

/-- The finite magnitude as a ratio. -/
def numerator (x : Double) : Nat := x.mantissa * Nat.pow 2 x.power.toNat

def denominator (x : Double) : Nat := Nat.pow 2 (-x.power).toNat

/-- The least power of ten above a positive ratio. -/
def decimalScale (numerator denominator : Nat) : Int :=
  if denominator ≤ numerator then ((Nat.toDigits 10 (numerator / denominator)).length : Int)
  else 1 - ((Nat.toDigits 10 ((denominator - 1) / numerator)).length : Int)

/-- Whether a decimal rounds to the magnitude of this number. -/
def readsBack (x : Double) (d : Decimal) : Bool :=
  ofRatio x.negative d.numerator d.denominator == x

/-- The decimal on the grid `10 ^ exponent` that is nearest to the number among its two
neighbours there that read back.  A number halfway between the two takes the upper one. -/
def onGrid? (x : Double) (exponent : Int) : Option Decimal :=
  let scaled := x.numerator * Nat.pow 10 (-exponent).toNat
  let unit := x.denominator * Nat.pow 10 exponent.toNat
  let below : Decimal := ⟨scaled / unit, exponent⟩
  let above : Decimal := ⟨scaled / unit + 1, exponent⟩
  let upper := decide (unit ≤ 2 * (scaled % unit))
  match x.readsBack below, x.readsBack above with
  | true, true => some (if upper then above else below)
  | true, false => some below
  | false, true => some above
  | false, false => none

/-- Every finite number is a decimal: a power of two below one is a power of five over a power
of ten. -/
def exactDecimal (x : Double) : Decimal :=
  ⟨x.numerator * Nat.pow 5 (-x.power).toNat, -((-x.power).toNat : Int)⟩

/-- The shortest decimal that reads back.  Seventeen digits identify a double. -/
def shortest (x : Double) : Decimal :=
  if x.mantissa = 0 then ⟨0, 0⟩ else
  let scale := decimalScale x.numerator x.denominator
  let grids := (List.range 17).map fun (n : Nat) => scale - 1 - (n : Int)
  ((grids.findSome? x.onGrid?).getD x.exactDecimal).strip

end Double

end VmInspect
