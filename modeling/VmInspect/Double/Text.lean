import VmInspect.Double.Shortest

/-!
# The written forms of a double

Two forms exist.  `Double.text` is what a program shows its user: an integral number below
`10 ^ 16` has one place, and every other finite number is written positionally with its shortest
digits.  `Double.inspect` is what a programmer is shown: the shortest digits with at least one
place, and an exponent where positional notation would be long.
-/

namespace VmInspect

namespace Decimal

/-- Positional notation.  A decimal without fractional digits has no point. -/
def positional (d : Decimal) : String :=
  let ds := d.digitChars
  let places := (-d.exponent).toNat
  if places = 0 then String.ofList (ds ++ List.replicate d.exponent.toNat '0')
  else
    let padded := List.replicate (places + 1 - ds.length) '0' ++ ds
    let whole := padded.length - places
    String.ofList (padded.take whole ++ '.' :: padded.drop whole)

/-- Scientific notation: one digit before the point, and no point when it is the only one. -/
def scientific (d : Decimal) : String :=
  let mark := "e" ++ toString d.leadingExponent
  match d.digitChars with
  | [] => mark
  | [c] => String.ofList [c] ++ mark
  | c :: rest => String.ofList (c :: '.' :: rest) ++ mark

end Decimal

namespace Double

/-- The sign in front of a number, that of a negative zero included. -/
def signText (x : Double) : String := if x.negative then "-" else ""

/-- Integral numbers below this are written with one place. -/
def integralLimit : Nat := 10000000000000000

def text (x : Double) : String :=
  if x.isNaN then x.signText ++ "nan"
  else if x.isInfinite then x.signText ++ "inf"
  else
    match x.toInt? with
    | some n =>
      if n.natAbs < integralLimit then x.signText ++ toString n.natAbs ++ ".0"
      else x.signText ++ x.shortest.positional
    | none => x.signText ++ x.shortest.positional

/-- Leading digits from `10 ^ -4` up to `10 ^ 15` are written positionally. -/
def inspectsPositionally (d : Decimal) : Bool :=
  d.digits == 0 || (decide (-4 ≤ d.leadingExponent) && decide (d.leadingExponent < 16))

/-- The inspection form. The sign of a NaN is not shown. -/
def inspect (x : Double) : String :=
  if x.isNaN then "NaN"
  else if x.isInfinite then x.signText ++ "inf"
  else
    let d := x.shortest
    if inspectsPositionally d then
      x.signText ++ d.positional ++ (if 0 ≤ d.exponent then ".0" else "")
    else x.signText ++ d.scientific

end Double

end VmInspect
