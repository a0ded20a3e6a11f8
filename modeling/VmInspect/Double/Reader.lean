import VmInspect.Double.Shortest

/-!
# Reading a decimal numeral

A numeral is an optional sign followed by digits with an optional point and an optional exponent,
or by one of the words for infinity and NaN in any case.  At least one digit stands before or
after the point, and a written exponent has at least one digit.
-/

namespace VmInspect

namespace Decimal

/-- The natural number that decimal digits spell. -/
def ofDigits (cs : List Char) : Nat :=
  cs.foldl (fun n c => 10 * n + (c.toNat - '0'.toNat)) 0

/-- A sign, if there is one, and the rest. -/
def signed : List Char → Bool × List Char
  | '-' :: rest => (true, rest)
  | '+' :: rest => (false, rest)
  | cs => (false, cs)

/-- The exponent part, which ends the numeral. -/
def readExponent? : List Char → Option Int
  | [] => some 0
  | c :: rest =>
    if c = 'e' ∨ c = 'E' then
      let (negative, digits) := signed rest
      if digits ≠ [] ∧ digits.all Char.isDigit then
        some (if negative then -(ofDigits digits : Int) else ofDigits digits)
      else none
    else none

/-- Digits with an optional point and an optional exponent, without a sign. -/
def read? (cs : List Char) : Option Decimal :=
  let whole := cs.takeWhile Char.isDigit
  let rest := cs.dropWhile Char.isDigit
  let (places, rest) := match rest with
    | '.' :: rest => (rest.takeWhile Char.isDigit, rest.dropWhile Char.isDigit)
    | _ => ([], rest)
  if whole = [] ∧ places = [] then none
  else (readExponent? rest).map fun e => ⟨ofDigits (whole ++ places), e - (places.length : Int)⟩

end Decimal

namespace Double

/-- A decimal whose leading digit stands at this power of ten or above is past every finite
number, and one this far below one is nearer to zero than to any other number. -/
def decimalBound : Int := 400

/-- The number nearest to a decimal. -/
def ofDecimal (negative : Bool) (d : Decimal) : Double :=
  if d.digits = 0 then ofCode negative 0
  else if decimalBound ≤ d.leadingExponent then infinity negative
  else if d.leadingExponent ≤ -decimalBound then ofCode negative 0
  else ofRatio negative d.numerator d.denominator

/-- The number that a whole text spells. -/
def read? (cs : List Char) : Option Double :=
  let (negative, body) := Decimal.signed cs
  let word := String.ofList (body.map Char.toLower)
  if word = "inf" ∨ word = "infinity" then some (infinity negative)
  else if word = "nan" then some (notANumber negative)
  else (Decimal.read? body).map (ofDecimal negative)

end Double

end VmInspect
