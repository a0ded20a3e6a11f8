import VmInspect.Double.Basic

/-!
# Runtime values

A value is nil, a boolean, a number in one of two representations, a text, or an object known by
its id.  Equality (`Value.equal`) looks across the two representations of numbers, and for floats
it is numerical: a NaN differs from itself and the two zeros are equal.
-/

namespace VmInspect

/-- A runtime value. Objects are known by an id. -/
inductive Value where
  | nil
  | boolean (b : Bool)
  | integer (n : Int64)
  | float (x : Double)
  | string (s : String)
  | table (id : Nat)
  | function (id : Nat)
  | userdata (id : Nat)
deriving DecidableEq, Inhabited

namespace Value

/-- Whether an integer and a float are equal: the integer, rounded to a float, is the float, and
the float has no fractional part. -/
def integerEqualsFloat (n : Int64) (x : Double) : Bool :=
  (Double.ofInt n.toInt).equal x && x.toInt?.isSome

/-- Equality as a program sees it. -/
def equal : Value → Value → Bool
  | nil, nil => true
  | boolean a, boolean b => a == b
  | integer a, integer b => a == b
  | float x, float y => x.equal y
  | integer n, float x => integerEqualsFloat n x
  | float x, integer n => integerEqualsFloat n x
  | string s, string t => s == t
  | table i, table j => i == j
  | function i, function j => i == j
  | userdata i, userdata j => i == j
  | _, _ => false

/-- Only nil and false count as false. -/
def isTruthy : Value → Bool
  | nil => false
  | boolean b => b
  | _ => true

/-- The name of the type, as messages give it. -/
def typeName : Value → String
  | nil => "nil"
  | boolean _ => "boolean"
  | integer _ => "number"
  | float _ => "number"
  | string _ => "string"
  | table _ => "table"
  | function _ => "function"
  | userdata _ => "userdata"

def isNumber : Value → Bool
  | integer _ => true
  | float _ => true
  | _ => false

def isString : Value → Bool
  | string _ => true
  | _ => false

/-- Concatenation takes strings and numbers. -/
def concatenates (v : Value) : Bool := v.isString || v.isNumber

def string? : Value → Option String
  | string s => some s
  | _ => none

end Value

end VmInspect
