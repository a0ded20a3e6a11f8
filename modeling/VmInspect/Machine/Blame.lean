import VmInspect.Failure
import VmInspect.Machine.Description
import VmInspect.Value.Integer

/-!
# Failures of running code

A failed operation is reported with the position of the instruction, the type of the offending value,
and the name of that value where one can be found.
-/

namespace VmInspect

/-- Where an operand of a failed operation lives. -/
inductive Operand where
  /-- a slot of the stack -/
  | slot (i : Nat)
  /-- an upvalue of the running function -/
  | upvalue (index : Nat)
  /-- nowhere: the value of an expression -/
  | detached (v : Value)
deriving Inhabited

/-- A line of a source, which need not be known. -/
def Position.ofSource (source : Option String) (line : Int) : Position :=
  ⟨(source.map Source.label).getD Name.unknown, line⟩

/-- A message behind its position. -/
def Position.locate (p : Position) (message : String) : String := p.text ++ ": " ++ message

/-- The name of an operand in parentheses, behind a blank. -/
def nameNote : Option Name → String
  | some name => " (" ++ name.text ++ ")"
  | none => ""

namespace Machine

/-! ## Operands -/

/-- The value of an operand. -/
def valueOf (m : Machine) : Operand → Value
  | .slot i => m.slot i
  | .upvalue index =>
    match (m.frameFunction? m.currentId).bind FunctionObject.upvalues? with
    | some upvalues => (upvalues[index]?.map (m.upvalues.get m.stack)).getD .nil
    | none => .nil
  | .detached v => v

/-- The name of an operand, as the running interpreted function knows it. -/
def operandName? (m : Machine) (v : Operand) : Option Name := do
  let frame := m.current
  if !frame.isScript then none
  let proto ← m.frameProto? m.currentId
  match v with
  | .upvalue index =>
    if index < proto.upvalues.size then some ⟨.upvalue, proto.upvalueName index⟩ else none
  | .slot i =>
    if frame.base ≤ i ∧ i < frame.top then
      proto.describe? (← frame.currentPc?) (i - frame.base)
    else none
  | .detached _ => none

/-- The name of an operand as a note to a message. -/
def operandNote (m : Machine) (v : Operand) : String := nameNote (m.operandName? v)

/-! ## Failures -/

/-- The position of the running interpreted function. -/
def position? (m : Machine) : Option Position := do
  if !m.current.isScript then none
  let proto ← m.frameProto? m.currentId
  return .ofSource proto.source ((m.currentLine? m.currentId m.current).getD (-1))

/-- A failure with the traceback, at the position of the running function. -/
def blame (m : Machine) (message : String) : Failure where
  kind := .runtime
  message := (m.position?.map fun p => p.locate message).getD message
  traceback := m.traceback 0
  position := m.position?

/-- A value of the wrong type, with a note. -/
def typeBlame (m : Machine) (v : Operand) (operation note : String) : Failure :=
  m.blame ("attempt to " ++ operation ++ " a " ++ (m.valueOf v).typeName ++ " value" ++ note)

/-- An operation met a value of the wrong type. -/
def typeFailure (m : Machine) (v : Operand) (operation : String) : Failure :=
  m.typeBlame v operation (m.operandNote v)

/-- A value that is no function was called. The calling instruction names it if it can. -/
def callFailure (m : Machine) (v : Operand) : Failure :=
  m.typeBlame v "call" <|
    match m.calledName? m.currentId with
    | some name => nameNote (some name)
    | none => m.operandNote v

/-- A numeric loop was given something else than a number. -/
def loopFailure (m : Machine) (v : Operand) (what : String) : Failure :=
  m.blame ("bad 'for' " ++ what ++ " (number expected, got " ++ (m.valueOf v).typeName ++ ")")

/-- A concatenation failed at the first operand that is neither a string nor a number. -/
def concatFailure (m : Machine) (v w : Operand) : Failure :=
  m.typeFailure (if (m.valueOf v).concatenates then w else v) "concatenate"

/-- An arithmetic operation failed at the first operand that is no number. -/
def arithmeticFailure (m : Machine) (v w : Operand) (operation : String) : Failure :=
  m.typeFailure (if (m.valueOf v).isNumber then w else v) operation

/-- One of two numbers is no integer. -/
def integerFailure (m : Machine) (v w : Operand) : Failure :=
  let culprit := if (m.valueOf v).toInteger?.isNone then v else w
  m.blame ("number" ++ m.operandNote culprit ++ " has no integer representation")

/-- Two values have no order. -/
def orderFailure (m : Machine) (v w : Operand) : Failure :=
  let a := (m.valueOf v).typeName
  let b := (m.valueOf w).typeName
  m.blame <|
    if a = b then "attempt to compare two " ++ a ++ " values"
    else "attempt to compare " ++ a ++ " with " ++ b

end Machine

end VmInspect
