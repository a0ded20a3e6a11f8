/-!
# Double-precision numbers by their bits

A number is kept as its 64-bit interchange pattern: one sign bit, eleven exponent bits, fifty-two
fraction bits.  Everything else is exact arithmetic on natural numbers: a finite number is
`± mantissa * 2 ^ power`, a ratio of naturals is rounded to the nearest number with ties to the
even mantissa (`Double.ofRatio`), and an integral number has an integer (`Double.toInt?`).
-/

namespace VmInspect

/-- A double-precision number, given by its interchange bits. -/
structure Double where
  bits : UInt64
deriving DecidableEq, Inhabited

namespace Double

/-! ## The three fields -/

/-- The weight of the sign bit, `2 ^ 63`. -/
def signBit : Nat := 9223372036854775808

/-- The number of fractions, `2 ^ 52`. It is the weight of the hidden bit. -/
def fractionRange : Nat := 4503599627370496

/-- The number of exponent fields, `2 ^ 11`. -/
def exponentRange : Nat := 2048

/-- The sign bit. It is meaningful for zeros and NaNs too. -/
def negative (x : Double) : Bool := decide (signBit ≤ x.bits.toNat)

/-- The eleven exponent bits. -/
def exponentField (x : Double) : Nat := x.bits.toNat / fractionRange % exponentRange

/-- The fifty-two fraction bits. -/
def fraction (x : Double) : Nat := x.bits.toNat % fractionRange

/-- The greatest exponent field is kept for infinities and NaNs. -/
def specialExponent : Nat := 2047

def isFinite (x : Double) : Bool := x.exponentField != specialExponent

def isInfinite (x : Double) : Bool := x.exponentField == specialExponent && x.fraction == 0

def isNaN (x : Double) : Bool := x.exponentField == specialExponent && x.fraction != 0

/-! ## Magnitude of a finite number -/

/-- The mantissa: the fraction, with the hidden bit of a normal number in front. -/
def mantissa (x : Double) : Nat :=
  if x.exponentField = 0 then x.fraction else fractionRange + x.fraction

/-- The power of two that scales the mantissa. -/
def power (x : Double) : Int :=
  if x.exponentField = 0 then -1074 else (x.exponentField : Int) - 1075

def isZero (x : Double) : Bool := x.isFinite && x.mantissa == 0

/-- The integer that a finite number denotes, if it denotes one. -/
def toInt? (x : Double) : Option Int :=
  if x.isFinite then
    let unit := Nat.pow 2 (-x.power).toNat
    if x.mantissa % unit = 0 then
      let magnitude := x.mantissa / unit * Nat.pow 2 x.power.toNat
      some (if x.negative then -(magnitude : Int) else magnitude)
    else none
  else none

/-- Numerical equality: the two zeros are equal, and a NaN equals nothing. -/
def equal (x y : Double) : Bool :=
  !x.isNaN && !y.isNaN && (x == y || (x.isZero && y.isZero))

/-! ## Rounding a ratio -/

/-- A quotient rounded to the nearest natural, a tie to the even one. -/
def roundToEven (numerator denominator : Nat) : Nat :=
  let quotient := numerator / denominator
  let rest := 2 * (numerator % denominator)
  if rest < denominator then quotient
  else if denominator < rest then quotient + 1
  else quotient + quotient % 2

/-- The exponent of the greatest power of two that is at most a positive ratio. -/
def binaryExponent (numerator denominator : Nat) : Int :=
  let guess : Int := (numerator.log2 : Int) - denominator.log2
  if denominator * Nat.pow 2 guess.toNat ≤ numerator * Nat.pow 2 (-guess).toNat then guess else guess - 1

/-- The code of infinity: one above the code of the greatest finite magnitude. -/
def infinityCode : Nat := specialExponent * fractionRange

/-- The magnitude bits of the number nearest to a ratio.  The mantissa takes as many bits as the
least power allows, and a mantissa rounded up to `2 ^ 53` carries into the exponent by itself. -/
def magnitudeCode (numerator denominator : Nat) : Nat :=
  if numerator = 0 then 0 else
  let unit : Int := max (binaryExponent numerator denominator - 52) (-1074)
  let m := roundToEven (numerator * Nat.pow 2 (-unit).toNat) (denominator * Nat.pow 2 unit.toNat)
  min ((unit + 1074).toNat * fractionRange + m) infinityCode

/-- The number with a sign and magnitude bits. -/
def ofCode (negative : Bool) (code : Nat) : Double :=
  ⟨UInt64.ofNat (if negative then signBit + code else code)⟩

/-- The number nearest to `± numerator / denominator`. -/
def ofRatio (negative : Bool) (numerator denominator : Nat) : Double :=
  ofCode negative (magnitudeCode numerator denominator)

/-- The number nearest to an integer. -/
def ofInt (n : Int) : Double := ofRatio (decide (n < 0)) n.natAbs 1

def infinity (negative : Bool) : Double := ofCode negative infinityCode

/-- The quiet NaN without payload. -/
def notANumber (negative : Bool) : Double := ofCode negative (infinityCode + fractionRange / 2)

end Double

end VmInspect
