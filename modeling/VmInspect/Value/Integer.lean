import VmInspect.Double.Reader
import VmInspect.Text.Blank
import VmInspect.Value.Basic

/-!
# Integers without rounding

`Value.toInteger?` converts a value to an integer when nothing is lost: an integer is itself, a
float has to be integral and in range, and a text has to spell such a number, blanks at its ends
aside.  A hexadecimal text may have any number of digits and is taken modulo `2 ^ 64`.
-/

namespace VmInspect

namespace Value

/-- The value of a hexadecimal digit in either case. -/
def hexDigit? (c : Char) : Option Nat :=
  if c.isDigit then some (c.toNat - '0'.toNat)
  else if 'a' ≤ c ∧ c ≤ 'f' then some (c.toNat - 'a'.toNat + 10)
  else if 'A' ≤ c ∧ c ≤ 'F' then some (c.toNat - 'A'.toNat + 10)
  else none

/-- The natural number that hexadecimal digits spell, after a number already read. -/
def hexNumber? (n : Nat) : List Char → Option Nat
  | [] => some n
  | c :: cs => do hexNumber? (16 * n + (← hexDigit? c)) cs

/-- The word that hexadecimal digits spell, after a word already read.  Digits past 64 bits push the
first ones out. -/
def hexWord? (n : UInt64) : List Char → Option UInt64
  | [] => some n
  | c :: cs => do hexWord? (n * 16 + UInt64.ofNat (← hexDigit? c)) cs

/-- A hexadecimal numeral: a sign, `0x` or `0X`, and at least one digit.  The word is read as an
integer with a sign before it is negated. -/
def readHexInteger? (cs : List Char) : Option Int64 :=
  let (negative, body) := Decimal.signed cs
  match body with
  | '0' :: x :: digits =>
    if (x = 'x' ∨ x = 'X') ∧ digits ≠ [] then
      (hexWord? 0 digits).map fun n => if negative then -n.toInt64 else n.toInt64
    else none
  | _ => none

/-- The integers of 64 bits. -/
def inIntegerRange (n : Int) : Bool :=
  decide (-9223372036854775808 ≤ n) && decide (n < 9223372036854775808)

/-- An integer that fits 64 bits. -/
def fitInteger? (n : Int) : Option Int64 :=
  if inIntegerRange n then some (Int64.ofInt n) else none

/-- A decimal numeral without point and exponent: a sign and at least one digit. -/
def readDecimalInteger? (cs : List Char) : Option Int64 :=
  let (negative, digits) := Decimal.signed cs
  if digits ≠ [] ∧ digits.all Char.isDigit then
    let n := Decimal.ofDigits digits
    fitInteger? (if negative then -(n : Int) else n)
  else none

/-- An integral float in range. -/
def integerOfFloat? (x : Double) : Option Int64 := x.toInt?.bind fitInteger?

/-- The integer that a text spells: as a hexadecimal integer, as a decimal one, or as a float that
is integral. -/
def integerOfText? (cs : List Char) : Option Int64 :=
  let cs := Text.trim cs
  readHexInteger? cs <|> readDecimalInteger? cs <|> (Double.read? cs).bind integerOfFloat?

/-- The integer a value converts to without rounding. -/
def toInteger? : Value → Option Int64
  | integer n => some n
  | float x => integerOfFloat? x
  | string s => integerOfText? s.toList
  | _ => none

end Value

end VmInspect
